import IterationEngine.Proofs.Run

/-!
# Quiet actions

What the engine does by itself between two calls of guest code.

An operation of the protocol reads the realm, allocates objects, adds entries to a map or a set, takes the pending
exception and raises errors that it has made. `Realm.Quiet` says what all of that leaves alone: every object but
the entries of maps and sets, and all of the context but the pending exception.
-/

namespace IterationEngine

variable {α β : Type}

/-! ## Heaps -/

/-- The same kind, up to the entries of a map or the values of a set. -/
inductive ObjectKind.Alike : ObjectKind → ObjectKind → Prop
  | same (k : ObjectKind) : Alike k k
  | map (d d' : MapData) : Alike (.map d) (.map d')
  | set (d d' : SetData) : Alike (.set d) (.set d')

theorem ObjectKind.Alike.trans {k₁ k₂ k₃ : ObjectKind} (h : k₁.Alike k₂) (h' : k₂.Alike k₃) : k₁.Alike k₃ := by
  cases h with
  | same => exact h'
  | map d => cases h' <;> exact .map _ _
  | set d => cases h' <;> exact .set _ _

/-- `h'` has the objects of `h`, each of them unchanged but for the entries of maps and sets. -/
def Heap.Extends (h h' : Heap) : Prop :=
  ∀ id o, h.get? id = some o → ∃ kind, h'.get? id = some { o with kind } ∧ o.kind.Alike kind

namespace Heap.Extends

variable {h₁ h₂ h₃ : Heap}

theorem refl (h : Heap) : h.Extends h := fun _ o ho => ⟨o.kind, ho, .same _⟩

theorem trans (h : h₁.Extends h₂) (h' : h₂.Extends h₃) : h₁.Extends h₃ := by
  intro id o ho
  obtain ⟨k, hk, ha⟩ := h id o ho
  obtain ⟨k', hk', ha'⟩ := h' id _ hk
  exact ⟨k', hk', ha.trans ha'⟩

theorem alloc (h : Heap) (o : Object) : h.Extends (h.alloc o).2 :=
  fun _ p hp => ⟨p.kind, Heap.get?_alloc_of_some hp o, .same _⟩

theorem modify {f : Object → Object} (hf : ∀ o, ∃ kind, f o = { o with kind } ∧ o.kind.Alike kind)
    (h : Heap) (id : ObjectId) : h.Extends (h.modify id f) := by
  intro id' o ho
  rw [Heap.get?_modify, ho]
  by_cases hid : id = id'
  · obtain ⟨kind, hk, ha⟩ := hf o
    exact ⟨kind, by rw [if_pos hid, Option.map_some, hk], ha⟩
  · exact ⟨o.kind, by rw [if_neg hid], .same _⟩

theorem get?_eq_none (h : h₁.Extends h₂) {id : ObjectId} (hn : h₂.get? id = none) : h₁.get? id = none := by
  cases ho : h₁.get? id with
  | none => rfl
  | some o =>
    obtain ⟨_, hk, _⟩ := h id o ho
    rw [hn] at hk
    cases hk

/-- An error stays an error. -/
theorem errorKind? (h : h₁.Extends h₂) {id : ObjectId} {k : ErrorKind} (he : h₁.errorKind? id = some k) :
    h₂.errorKind? id = some k := by
  unfold Heap.errorKind? at he ⊢
  cases ho : h₁.get? id with
  | none => rw [ho] at he; cases he
  | some o =>
    obtain ⟨kind, hk, ha⟩ := h id o ho
    obtain ⟨okind, _, _, _⟩ := o
    rw [ho] at he
    rw [hk]
    cases ha with
    | same => exact he
    | map | set => cases he

end Heap.Extends

/-! ## Realms -/

/-- `v` is an error of `r'` that is no object of `r`. -/
def Realm.FreshError (r r' : Realm) (v : Value) : Prop :=
  ∃ id, v = .object id ∧ r.heap.get? id = none ∧ (r'.heap.errorKind? id).isSome

/-- What may become of a realm between two calls of guest code. -/
structure Realm.Quiet (r r' : Realm) : Prop where
  heap : r.heap.Extends r'.heap
  context : { r'.context with cell := r.context.cell } = r.context
  pending : ∀ v, r'.context.pending = some v → r.context.pending = some v ∨ r.FreshError r' v
  registry : r'.registry = r.registry

namespace Realm.Quiet

variable {r r₁ r₂ r₃ : Realm}

theorem refl (r : Realm) : r.Quiet r := ⟨.refl _, rfl, fun _ h => .inl h, rfl⟩

theorem trans (h : r₁.Quiet r₂) (h' : r₂.Quiet r₃) : r₁.Quiet r₃ where
  heap := h.heap.trans h'.heap
  context := by rw [← h.context, ← h'.context]
  pending := by
    intro v hv
    rcases h'.pending v hv with h₂ | ⟨id, rfl, hn, he⟩
    · rcases h.pending v h₂ with h₁ | ⟨id, rfl, hn, he⟩
      · exact .inl h₁
      · obtain ⟨k, hk⟩ := Option.isSome_iff_exists.mp he
        exact .inr ⟨id, rfl, hn, Option.isSome_iff_exists.mpr ⟨k, h'.heap.errorKind? hk⟩⟩
    · exact .inr ⟨id, rfl, h.heap.get?_eq_none hn, he⟩
  registry := h'.registry.trans h.registry

/-- A change of the heap alone is quiet if the heap is extended. -/
theorem ofHeap {h : Heap} (hh : r.heap.Extends h) : r.Quiet { r with heap := h } :=
  ⟨hh, rfl, fun _ hv => .inl hv, rfl⟩

theorem cleared (r : Realm) : r.Quiet { r with context := { r.context with cell := .empty } } :=
  ⟨.refl _, rfl, nofun, rfl⟩

theorem withError (r : Realm) (kind : ErrorKind) (message : String) : r.Quiet (r.withError kind message) where
  heap := .alloc _ _
  context := rfl
  pending := by
    intro v hv
    obtain ⟨e, he, hn, ho⟩ := r.raised_withError kind message
    rw [he, Option.some.injEq] at hv
    exact .inr ⟨e, hv.symm, hn, by rw [Heap.errorKind?, ho]; rfl⟩
  registry := rfl

end Realm.Quiet

/-! ## Actions -/

/-- An action that is quiet in every realm. -/
def Realm.IsQuiet (x : Action α) : Prop := ∀ r : Realm, r.Quiet (x r).2

namespace Realm.IsQuiet

theorem read {x : Action α} (hx : ∀ r, (x r).2 = r) : IsQuiet x := by
  intro r
  rw [hx r]
  exact .refl r

theorem pure (a : α) : IsQuiet (Pure.pure a : Action α) := .read fun _ => rfl

theorem bind {x : Action α} {f : α → Action β} (hx : IsQuiet x) (hf : ∀ a, IsQuiet (f a)) :
    IsQuiet (x >>= f) :=
  fun r => (hx r).trans (hf (x r).1 (x r).2)

theorem getHeap : IsQuiet Realm.getHeap := .read fun _ => rfl

theorem getContext : IsQuiet Realm.getContext := .read fun _ => rfl

theorem isPending : IsQuiet Realm.isPending := .read fun _ => rfl

theorem textOf (v : Value) : IsQuiet (Realm.textOf v) := .read fun _ => rfl

theorem intrinsic (i : Intrinsic) : IsQuiet (Realm.intrinsic i) := .read fun _ => rfl

theorem takePending : IsQuiet Realm.takePending := fun r => .cleared r

theorem alloc (o : Object) : IsQuiet (Realm.alloc o) := fun r => .ofHeap (.alloc r.heap o)

theorem raiseError (kind : ErrorKind) (message : String) : IsQuiet (Realm.raiseError kind message) :=
  fun r => .withError r kind message

theorem raiseTypeError (message : String) : IsQuiet (Realm.raiseTypeError message) := raiseError _ message

theorem raiseNotCallable (key : String) (v : Value) : IsQuiet (Access.raiseNotCallable key v) :=
  getHeap.bind fun _ => raiseTypeError _

theorem raiseNotResult (v : Value) : IsQuiet (Iterator.raiseNotResult v) :=
  (textOf v).bind fun _ => raiseTypeError _

theorem outcome (v : Value) : IsQuiet (Iterator.outcome v) := by
  refine isPending.bind fun pending => ?_
  cases pending with
  | true => exact takePending
  | false => exact .pure _

theorem bodyOutcome (c : Completion) : IsQuiet (Iterator.bodyOutcome c) := by
  refine isPending.bind fun pending => ?_
  cases pending with
  | true => exact takePending
  | false => exact .pure _

theorem modifyObject {f : Object → Object} (hf : ∀ o, ∃ kind, f o = { o with kind } ∧ o.kind.Alike kind)
    (id : ObjectId) : IsQuiet (Realm.modifyObject id f) :=
  fun r => .ofHeap (.modify hf r.heap id)

theorem insertEntry (map : ObjectId) (key v : Value) : IsQuiet (Iterator.insertEntry map key v) := by
  refine modifyObject (fun o => ?_) map
  obtain ⟨kind, _, _, _⟩ := o
  cases kind with
  | map data => exact ⟨_, rfl, .map _ _⟩
  | _ => exact ⟨_, rfl, .same _⟩

theorem insertValue (set : ObjectId) (v : Value) : IsQuiet (Iterator.insertValue set v) := by
  refine modifyObject (fun o => ?_) set
  obtain ⟨kind, _, _, _⟩ := o
  cases kind with
  | set data => exact ⟨_, rfl, .set _ _⟩
  | _ => exact ⟨_, rfl, .same _⟩

theorem createResult (v : Value) (done : Bool) : IsQuiet (Realm.createResult v done) :=
  (intrinsic _).bind fun _ => alloc _

theorem ofMap (source : Value) (kind : IterationKind) : IsQuiet (CollectionIterator.ofMap source kind) := by
  refine getHeap.bind fun heap => ?_
  split
  · split
    · exact (intrinsic _).bind fun _ => (alloc _).bind fun _ => .pure _
    · exact (raiseTypeError _).bind fun _ => .pure _
  · exact (textOf _).bind fun _ => (raiseTypeError _).bind fun _ => .pure _

theorem ofSet (source : Value) (kind : IterationKind) : IsQuiet (CollectionIterator.ofSet source kind) := by
  refine getHeap.bind fun heap => ?_
  split
  · split
    · exact (intrinsic _).bind fun _ => (alloc _).bind fun _ => .pure _
    · exact (raiseTypeError _).bind fun _ => .pure _
  · exact (textOf _).bind fun _ => (raiseTypeError _).bind fun _ => .pure _

end Realm.IsQuiet

end IterationEngine
