import IterationEngine.Intrinsics
import IterationEngine.Proofs.Call
import IterationEngine.Proofs.Closed.Heap
import IterationEngine.Proofs.Definitions
import IterationEngine.Proofs.Kinds

/-!
# Iterators over collections

Which values an iterator over a map or a set is made for, and what is made for the others.

The kind of an object counts and nothing else: a plain object that carries the tag of a map is refused, and so are the
prototypes, the iterators and the collections of the other class. Either way one object is allocated, the iterator or
the error, and no other object is touched.

1. `CollectionClass.iterate_apply`: the two constructors are one, up to the class.
2. `CollectionClass.callFunction_method`: a call of a method that makes an iterator constructs it for the effective
   receiver.
3. `CollectionClass.method_of_install`: the methods `keys`, `values` and `entries` of the prototypes are such methods.
4. `CollectionClass.branded`: all of it together.
-/

namespace IterationEngine

/-- The classes of collections that iterators are made over. -/
inductive CollectionClass where
  | map
  | set
  deriving DecidableEq, Repr

namespace CollectionClass

/-! ## The members of the two classes -/

/-- Whether an object of that kind is a collection of the class, whatever tag it carries. -/
def holds : CollectionClass → ObjectKind → Bool
  | map => ObjectKind.isMap
  | set => ObjectKind.isSet

/-- The value is a genuine collection of the class. -/
def Genuine (c : CollectionClass) (h : Heap) (v : Value) (source : ObjectId) : Prop :=
  v = .object source ∧ ∃ o, h.get? source = some o ∧ c.holds o.kind = true

/-- The kind of the iterators over collections of the class. -/
def iteratorKind : CollectionClass → CollectionCursor → ObjectKind
  | map => .mapIterator
  | set => .setIterator

/-- The intrinsic object from which the iterators inherit. -/
def iteratorPrototype : CollectionClass → Intrinsic
  | map => .mapIteratorPrototype
  | set => .setIteratorPrototype

/-- The intrinsic object from which the collections inherit. -/
def prototype : CollectionClass → Intrinsic
  | map => .mapPrototype
  | set => .setPrototype

/-- The part of the intrinsic objects that the class adds. -/
def part : CollectionClass → Intrinsics.Part
  | map => .maps
  | set => .sets

/-- The constructor of iterators. -/
def iterate : CollectionClass → Value → IterationKind → Action Handle
  | map => CollectionIterator.ofMap
  | set => CollectionIterator.ofSet

/-- The code of the methods that make iterators. -/
def method : CollectionClass → IterationKind → Builtin
  | map => .mapIterator
  | set => .setIterator

/-- What the iterators yield that the method of that name makes. The keys of a set are its values. -/
def yields : CollectionClass → IterationKind → IterationKind
  | set, .keys => .values
  | _, kind => kind

/-- The message of the error for a value that is not iterated over. -/
def refusal (c : CollectionClass) (h : Heap) (v : Value) : String :=
  let (source, data) := match c with
    | map => ("Map Iterator source ", " has no [[MapData]]")
    | set => ("Set Iterator source ", " has no [[SetData]]")
  match v with
  | .object id => source ++ h.objectText id ++ data
  | v => source ++ v.text h.objectText ++ " is not an object"

/-! ## Construction -/

/-- The collection that a value is. -/
def source? (c : CollectionClass) (h : Heap) (v : Value) : Handle :=
  v.object?.filter fun id => match c with
    | map => (h.mapData? id).isSome
    | set => (h.setData? id).isSome

/-- A fresh iterator over a collection. -/
def iterator (c : CollectionClass) (r : Realm) (source : ObjectId) (kind : IterationKind) : Object where
  kind := c.iteratorKind { source, index := 0, kind }
  prototype := r.context.intrinsic c.iteratorPrototype

/-- What the constructor answers, and the realm that it leaves. -/
def iterated (c : CollectionClass) (v : Value) (kind : IterationKind) (r : Realm) : Handle × Realm :=
  match c.source? r.heap v with
  | some source =>
    (some (r.heap.alloc (c.iterator r source kind)).1, { r with heap := (r.heap.alloc (c.iterator r source kind)).2 })
  | none => (none, r.withError .typeError (c.refusal r.heap v))

theorem source?_eq_some {c : CollectionClass} {h : Heap} {v : Value} {source : ObjectId} :
    c.source? h v = some source ↔ c.Genuine h v source := by
  have hobject : v.object? = some source ↔ v = .object source := by
    cases v with
    | undefined | null | boolean | number | string | symbol => exact ⟨nofun, nofun⟩
    | object id => exact ⟨fun hid => congrArg Value.object (Option.some.inj hid), fun hid => hid ▸ rfl⟩
  rw [source?, Option.filter_eq_some_iff, hobject, Genuine]
  cases c with
  | map => exact and_congr_right fun _ => Heap.isSome_mapData?_iff
  | set => exact and_congr_right fun _ => Heap.isSome_setData?_iff

theorem iterate_apply (c : CollectionClass) (v : Value) (kind : IterationKind) (r : Realm) :
    c.iterate v kind r = c.iterated v kind r := by
  cases v with
  | undefined | null | boolean | number | string | symbol => cases c <;> rfl
  | object id =>
    cases c with
    | map =>
      show CollectionIterator.ofMap (.object id) kind r = _
      rw [CollectionIterator.ofMap, Realm.getHeap_bind_apply, iterated, source?, Value.object?, Option.filter_some]
      dsimp only
      cases r.heap.mapData? id <;> rfl
    | set =>
      show CollectionIterator.ofSet (.object id) kind r = _
      rw [CollectionIterator.ofSet, Realm.getHeap_bind_apply, iterated, source?, Value.object?, Option.filter_some]
      dsimp only
      cases r.heap.setData? id <;> rfl

/-- What the construction of an iterator for the value comes to: it is made exactly for the genuine collections, and an
error tells of what is wrong with any other value. One object is added and no other one changed. -/
structure Outcome (c : CollectionClass) (v : Value) (kind : IterationKind) (r : Realm) (it : Handle) (r' : Realm) :
    Prop where
  accepted : it.isSome = true ↔ ∃ source, c.Genuine r.heap v source
  made : ∀ id, it = some id → r'.context = r.context ∧ r.heap.get? id = none ∧
    ∃ source, v = .object source ∧ r'.heap.get? id = some
      { kind := c.iteratorKind { source, index := 0, kind }
        prototype := r.context.intrinsic c.iteratorPrototype
        properties := .empty
        slots := .empty }
  refused : it = none → r.Raised r' .typeError (c.refusal r.heap v)
  size : r'.heap.size = r.heap.size + 1
  kept : ∀ id o, r.heap.get? id = some o → r'.heap.get? id = some o

theorem outcome_iterated (c : CollectionClass) (v : Value) (kind : IterationKind) (r : Realm) :
    c.Outcome v kind r (c.iterated v kind r).1 (c.iterated v kind r).2 := by
  rw [iterated]
  cases hsource : c.source? r.heap v with
  | some source =>
    have hgenuine := source?_eq_some.mp hsource
    refine
      { accepted := ⟨fun _ => ⟨source, hgenuine⟩, fun _ => rfl⟩
        made := fun id heq => ?_
        refused := nofun
        size := Heap.size_alloc _ _
        kept := fun _ _ ho => Heap.get?_alloc_of_some ho _ }
    obtain rfl := Option.some.inj heq
    exact ⟨rfl, Heap.get?_alloc_fst _ _, source, hgenuine.1, Heap.get?_alloc_self _ _⟩
  | none =>
    refine
      { accepted := ⟨nofun, fun ⟨source, hgenuine⟩ => ?_⟩
        made := nofun
        refused := fun _ => Realm.raised_withError _ _ _
        size := Heap.size_alloc _ _
        kept := fun _ _ ho => Heap.get?_alloc_of_some ho _ }
    cases hsource.symm.trans (source?_eq_some.mpr hgenuine)

/-! ## Calls of the methods -/

/-- The construction does not look at the frame, and what it leaves is put back into the frame of the caller. -/
theorem iterated_enterFrame (c : CollectionClass) (v : Value) (kind : IterationKind) (r : Realm) (frame : Frame) :
    (c.iterated v kind (enterFrame frame r).2).1 = (c.iterated v kind r).1 ∧
      (leaveFrame r.context.frame (c.iterated v kind (enterFrame frame r).2).2).2 = (c.iterated v kind r).2 := by
  have hsame : c.source? (enterFrame frame r).2.heap v = c.source? r.heap v := rfl
  rw [iterated, iterated, hsame]
  cases c.source? r.heap v <;> exact ⟨rfl, rfl⟩

/-- A call of a method constructs the iterator for the effective receiver, whatever the arguments. -/
theorem callFunction_method {H : Type} (c : CollectionClass) (guest : GuestCode H) (f : ObjectId) (receiver : Value)
    (args : List Value) {kind : IterationKind} {m : Machine H} (hcan : m.realm.context.canCall = true)
    (hcode : m.realm.heap.code? f = some (.builtin (c.method kind))) :
    callFunction guest f receiver args m =
      let p := c.iterated (m.realm.context.effectiveReceiver receiver) kind m.realm
      some (.ofHandle p.1, m.withRealm p.2) := by
  let frame := m.realm.calleeFrame f receiver
  have hrun : (c.method kind).run (enterFrame frame m.realm).2 =
      (.ofHandle (c.iterated frame.receiver kind (enterFrame frame m.realm).2).1,
        (c.iterated frame.receiver kind (enterFrame frame m.realm).2).2) := by
    rw [← iterate_apply]
    cases c <;> rfl
  obtain ⟨hanswer, hrealm⟩ := c.iterated_enterFrame frame.receiver kind m.realm frame
  rw [callFunction_of_canCall guest f receiver args hcan, hcode, runFramed, Run.lift_bind_apply]
  show ((liftM (c.method kind).run : Run H Value) >>= _) _ = _
  rw [Run.lift_bind_apply]
  show some (((c.method kind).run (enterFrame frame m.realm).2).1,
    m.withRealm (leaveFrame m.realm.context.frame ((c.method kind).run (enterFrame frame m.realm).2).2).2) = _
  rw [hrun, hanswer, hrealm]
  rfl

end CollectionClass

/-! ## Methods of the prototypes -/

namespace IterationKind

/-- One of three things for each kind. -/
def select {α : Type} (k v e : α) : IterationKind → α
  | keys => k
  | values => v
  | entries => e

theorem name_injective {kind kind' : IterationKind} : kind.name = kind'.name → kind = kind' := by
  cases kind <;> cases kind' <;> decide

end IterationKind

namespace Realm

variable {r : Realm} {id : ObjectId}

/-- The object has as its own method under that name a function that runs the code. -/
def HasMethod (r : Realm) (id : ObjectId) (name : String) (b : Builtin) : Prop :=
  ∃ f, r.heap.ownProperty? name id = some (.data (.object f) .hidden) ∧ r.heap.code? f = some (.builtin b)

/-- A bare object has the methods that it is given, if it is given nothing else under their names. -/
theorem hasMethod_definingAll {o : Object} {f : IterationKind → ObjectId} {b : IterationKind → Builtin}
    {ds others : List Definition} (ho : r.heap.get? id = some o) (hbare : o.properties = .empty)
    (hcode : ∀ kind, r.heap.code? (f kind) = some (.builtin (b kind)))
    (hds : ds.Perm ([IterationKind.keys, .values, .entries].map (fun kind => .method kind.name (.object (f kind))) ++
      others))
    (hothers : ∀ kind : IterationKind, ∀ d ∈ others, d.key ≠ kind.name) (kind : IterationKind) :
    (r.definingAll id ds).HasMethod id kind.name (b kind) := by
  have hmem : Definition.method kind.name (.object (f kind)) ∈ ds := by
    refine hds.mem_iff.mpr (List.mem_append_left others (List.mem_map.mpr ⟨kind, ?_, rfl⟩))
    cases kind <;> decide
  have honly : ∀ d ∈ ds, d.key = kind.name → d = .method kind.name (.object (f kind)) := by
    intro d hd hkey
    rcases List.mem_append.mp (hds.mem_iff.mp hd) with hd | hd
    · obtain ⟨kind', -, rfl⟩ := List.mem_map.mp hd
      obtain rfl := IterationKind.name_injective hkey
      rfl
    · exact absurd hkey (hothers kind d hd)
  rw [Definition.definingAll_eq ho]
  refine ⟨f kind, ?_, ?_⟩
  · rw [Heap.ownProperty?, get?_withProperties ho, hbare]
    exact PropertyTable.find?_defineAll_of_only (d := .method kind.name (.object (f kind))) honly (.inr ⟨rfl, hmem⟩)
  · let t := o.properties.defineAll ds
    have hkept := Heap.KeepsCode.modify (f := fun o => { o with properties := t }) (fun _ => .inr rfl) r.heap id
    exact hkept _ _ (hcode kind)

theorem definingAll_append (r : Realm) (id : ObjectId) (ds ds' : List Definition) :
    (r.definingAll id ds).definingAll id ds' = r.definingAll id (ds ++ ds') :=
  List.foldl_append.symm

theorem intrinsic_register (i : Intrinsic) (id : ObjectId) (r : Realm) :
    (Intrinsics.register i id r).2.context.intrinsic i = some id := by
  show ((r.context.builtins.insert i.name (some id)).find? i.name).join = some id
  rw [Table.find?_insert, if_pos rfl]
  rfl

/-! ### What an installation does, step by step -/

section Steps

variable {α : Type}

theorem inheriting_bind_apply (f : ObjectId → Action α) (r : Realm) :
    (Intrinsics.inheriting .objectPrototype >>= f) r =
      let a := r.heap.alloc (.plain (r.context.intrinsic .objectPrototype))
      f a.1 { r with heap := a.2 } := rfl

theorem builtinFunction_bind_apply (name : String) (b : Builtin) (f : ObjectId → Action α) (r : Realm) :
    (Intrinsics.builtinFunction name b >>= f) r =
      let a := r.heap.alloc (.ofCode name 0 (.builtin b))
      f a.1 { r with heap := a.2 } := rfl

theorem setMethod_bind_apply (id : ObjectId) (key : String) (v : Value) (f : Unit → Action α) (r : Realm) :
    (setMethod id key v >>= f) r = f () (r.definingAll id [.method key v]) := rfl

theorem setTag_bind_apply (id : ObjectId) (tag : String) (f : Unit → Action α) (r : Realm) :
    (Intrinsics.setTag id tag >>= f) r = f () (r.definingAll id [.value r.context.tagKey (.string tag) .label]) := rfl

end Steps

theorem installMaps_apply (r : Realm) :
    let a := r.heap.alloc (.plain (r.context.intrinsic .objectPrototype))
    let k := a.2.alloc (.ofCode "keys" 0 (.builtin (.mapIterator .keys)))
    let v := k.2.alloc (.ofCode "values" 0 (.builtin (.mapIterator .values)))
    let e := v.2.alloc (.ofCode "entries" 0 (.builtin (.mapIterator .entries)))
    Intrinsics.installMaps r = Intrinsics.register .mapPrototype a.1 (definingAll { r with heap := e.2 } a.1
      [.method "keys" (.object k.1), .method "values" (.object v.1), .method "entries" (.object e.1),
        .method r.context.iteratorKey (.object e.1), .value r.context.tagKey (.string "Map") .label]) := by
  rw [Intrinsics.installMaps, getContext_bind_apply, inheriting_bind_apply, builtinFunction_bind_apply,
    builtinFunction_bind_apply, builtinFunction_bind_apply, setMethod_bind_apply, setMethod_bind_apply,
    setMethod_bind_apply, setMethod_bind_apply, setTag_bind_apply]
  simp only [definingAll_append, Definition.context_definingAll]
  rfl

theorem installSets_apply (r : Realm) :
    let a := r.heap.alloc (.plain (r.context.intrinsic .objectPrototype))
    let v := a.2.alloc (.ofCode "values" 0 (.builtin (.setIterator .values)))
    let e := v.2.alloc (.ofCode "entries" 0 (.builtin (.setIterator .entries)))
    Intrinsics.installSets r = Intrinsics.register .setPrototype a.1 (definingAll { r with heap := e.2 } a.1
      [.method "values" (.object v.1), .method "keys" (.object v.1), .method "entries" (.object e.1),
        .method r.context.iteratorKey (.object v.1), .value r.context.tagKey (.string "Set") .label]) := by
  rw [Intrinsics.installSets, getContext_bind_apply, inheriting_bind_apply, builtinFunction_bind_apply,
    builtinFunction_bind_apply, setMethod_bind_apply, setMethod_bind_apply, setMethod_bind_apply,
    setMethod_bind_apply, setTag_bind_apply]
  simp only [definingAll_append, Definition.context_definingAll]
  rfl

theorem hasMethod_register {name : String} {b : Builtin} (h : r.HasMethod id name b) (i : Intrinsic) (id' : ObjectId) :
    (Intrinsics.register i id' r).2.HasMethod id name b := h

/-- The key of no symbol is the name of such a method. -/
theorem key_ne_name (s : Symbol) (kind : IterationKind) : s.key ≠ kind.name := s.key_ne (by cases kind <;> decide)

theorem others_ne_name (c : Context) (v : Value) (tag : String) (kind : IterationKind) :
    ∀ d ∈ [Definition.method c.iteratorKey v, .value c.tagKey (.string tag) .label], d.key ≠ kind.name := by
  rw [List.forall_mem_cons, List.forall_mem_singleton]
  exact ⟨key_ne_name _ kind, key_ne_name _ kind⟩

theorem hasMethod_maps {k v e : ObjectId} {o : Object} (ho : r.heap.get? id = some o) (hbare : o.properties = .empty)
    (hk : r.heap.code? k = some (.builtin (.mapIterator .keys)))
    (hv : r.heap.code? v = some (.builtin (.mapIterator .values)))
    (he : r.heap.code? e = some (.builtin (.mapIterator .entries))) (c : Context) (kind : IterationKind) :
    (r.definingAll id [.method "keys" (.object k), .method "values" (.object v), .method "entries" (.object e),
      .method c.iteratorKey (.object e), .value c.tagKey (.string "Map") .label]).HasMethod id kind.name
        (CollectionClass.map.method (CollectionClass.map.yields kind)) := by
  refine hasMethod_definingAll (f := IterationKind.select k v e)
    (b := fun kind => CollectionClass.map.method (CollectionClass.map.yields kind)) ho hbare (fun kind => ?_) (.refl _)
    (others_ne_name c _ _) kind
  cases kind with
  | keys => exact hk
  | values => exact hv
  | entries => exact he

/-- The method `keys` of sets is the function `values`. -/
theorem hasMethod_sets {v e : ObjectId} {o : Object} (ho : r.heap.get? id = some o) (hbare : o.properties = .empty)
    (hv : r.heap.code? v = some (.builtin (.setIterator .values)))
    (he : r.heap.code? e = some (.builtin (.setIterator .entries))) (c : Context) (kind : IterationKind) :
    (r.definingAll id [.method "values" (.object v), .method "keys" (.object v), .method "entries" (.object e),
      .method c.iteratorKey (.object v), .value c.tagKey (.string "Set") .label]).HasMethod id kind.name
        (CollectionClass.set.method (CollectionClass.set.yields kind)) := by
  refine hasMethod_definingAll (f := IterationKind.select v v e)
    (b := fun kind => CollectionClass.set.method (CollectionClass.set.yields kind)) ho hbare (fun kind => ?_)
    (.swap _ _ _) (others_ne_name c _ _) kind
  cases kind with
  | keys | values => exact hv
  | entries => exact he

end Realm

namespace CollectionClass

/-- Once the class has been installed, its prototype has methods that make iterators. -/
theorem method_of_install (c : CollectionClass) (kind : IterationKind) (r : Realm) :
    ∃ id, (c.part.install r).2.context.intrinsic c.prototype = some id ∧
      (c.part.install r).2.HasMethod id kind.name (c.method (c.yields kind)) := by
  have hkept : ∀ (h : Heap) (o : Object), h.KeepsCode (h.alloc o).2 := fun h o => .ofKinds (.alloc h o)
  have hfresh : ∀ (h : Heap) (name : String) (b : Builtin),
      (h.alloc (.ofCode name 0 (.builtin b))).2.code? (h.alloc (.ofCode name 0 (.builtin b))).1 = some (.builtin b) :=
    fun h name b => Heap.code?_eq_some.mpr ⟨_, _, _, Heap.get?_alloc_self h _, rfl⟩
  have hthere : ∀ {h : Heap} {id : ObjectId} {p : Object}, h.get? id = some p → ∀ o, (h.alloc o).2.get? id = some p :=
    fun hp o => Heap.get?_alloc_of_some hp o
  cases c with
  | map =>
    have hpart : map.part.install = Intrinsics.installMaps := rfl
    rw [hpart, Realm.installMaps_apply]
    refine ⟨_, Realm.intrinsic_register _ _ _, Realm.hasMethod_register ?_ _ _⟩
    refine Realm.hasMethod_maps (hthere (hthere (hthere (Heap.get?_alloc_self _ _) _) _) _) rfl ?_ ?_ ?_ r.context kind
    · exact hkept _ _ _ _ (hkept _ _ _ _ (hfresh _ _ _))
    · exact hkept _ _ _ _ (hfresh _ _ _)
    · exact hfresh _ _ _
  | set =>
    have hpart : set.part.install = Intrinsics.installSets := rfl
    rw [hpart, Realm.installSets_apply]
    refine ⟨_, Realm.intrinsic_register _ _ _, Realm.hasMethod_register ?_ _ _⟩
    refine Realm.hasMethod_sets (hthere (hthere (Heap.get?_alloc_self _ _) _) _) rfl ?_ ?_ r.context kind
    · exact hkept _ _ _ _ (hfresh _ _ _)
    · exact hfresh _ _ _

/-- Iterators over collections of the class: what the constructor comes to for every value, that a call of a method
which makes iterators comes to the same for its effective receiver, and that the methods of the prototype are such. -/
structure Branded (c : CollectionClass) : Prop where
  iterate : ∀ v kind r, c.Outcome v kind r (c.iterate v kind r).1 (c.iterate v kind r).2
  called : ∀ (H : Type) (guest : GuestCode H) (f : ObjectId) (receiver : Value) (args : List Value)
    (kind : IterationKind) (m : Machine H), m.realm.context.canCall = true →
    m.realm.heap.code? f = some (.builtin (c.method kind)) →
    ∃ it r', callFunction guest f receiver args m = some (.ofHandle it, m.withRealm r') ∧
      c.Outcome (m.realm.context.effectiveReceiver receiver) kind m.realm it r'
  methods : ∀ (name : IterationKind) (r : Realm), ∃ id, (c.part.install r).2.context.intrinsic c.prototype = some id ∧
    (c.part.install r).2.HasMethod id name.name (c.method (c.yields name))

theorem branded (c : CollectionClass) : c.Branded where
  iterate v kind r := by
    rw [iterate_apply]
    exact c.outcome_iterated v kind r
  called H guest f receiver args kind m hcan hcode :=
    ⟨_, _, c.callFunction_method guest f receiver args hcan hcode, c.outcome_iterated _ kind m.realm⟩
  methods name r := c.method_of_install name r

/-- The realm of a map, object 0, a plain object, object 1, and the method `values` of maps, object 2. -/
def mapRealm : Realm where
  heap := { objects := #[{ kind := .map .empty }, .plain none, .ofCode "values" 0 (.builtin (.mapIterator .values))] }
  context := { maxDepth := 10, strict := true, symbols := ⟨⟨1, ""⟩, ⟨2, ""⟩⟩ }
  registry := {}

/-- The method makes an iterator over the map, and refuses the plain object. -/
theorem branded_mapRealm :
    (∃ it r, callFunction (fun _ _ => Run.diverge) ⟨2⟩ (.object ⟨0⟩) [] { realm := mapRealm, host := () } =
        some (.ofHandle it, { realm := r, host := () }) ∧
      it.isSome = true ∧ CollectionClass.map.Outcome (.object ⟨0⟩) .values mapRealm it r) ∧
    ∃ r, callFunction (fun _ _ => Run.diverge) ⟨2⟩ (.object ⟨1⟩) [] { realm := mapRealm, host := () } =
        some (.undefined, { realm := r, host := () }) ∧
      CollectionClass.map.Outcome (.object ⟨1⟩) .values mapRealm none r := by
  have hcalled := fun receiver => (CollectionClass.branded .map).called Unit (fun _ _ => Run.diverge) ⟨2⟩ receiver []
    .values { realm := mapRealm, host := () } rfl rfl
  constructor
  · obtain ⟨it, r, hcall, hmade⟩ := hcalled (.object ⟨0⟩)
    exact ⟨it, r, hcall, hmade.accepted.mpr ⟨⟨0⟩, rfl, _, rfl, rfl⟩, hmade⟩
  · obtain ⟨it, r, hcall, hrefused⟩ := hcalled (.object ⟨1⟩)
    cases it with
    | none => exact ⟨r, hcall, hrefused⟩
    | some id =>
      obtain ⟨source, hsource, o, ho, hholds⟩ := hrefused.accepted.mp rfl
      obtain rfl := Value.object.inj hsource
      obtain rfl := Option.some.inj ho
      cases hholds

end CollectionClass

end IterationEngine
