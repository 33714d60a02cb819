import Mathlib.Data.Fintype.Card
import Mathlib.Logic.Relation
import IterationEngine.Proofs.Definitions

/-!
# Inheritance

What a lookup along the prototype chain finds, and which lookups a write changes.

An object finds under a key what the first object on its chain holds there, and nothing if no object on the chain owns
the key. So a write is seen from everywhere below the object that was written, up to the next object that owns the key
itself, and from nowhere else: a key that the object owned before has another property, and one that it did not own
hides whatever stands further up.

1. `Heap.OwnerAfter`: the first owner of a key, and how far up the chain it stands. It is nearer than there are objects
   (`Heap.OwnerAfter.lt_size`), for no object is met twice on the way to it, so the bound of the walk is never felt.
2. `Heap.lookup_eq_some_iff`: lookup finds what the first owner holds. Two heaps that agree on the prototypes and on
   what stands under a key agree on its lookup (`Heap.lookup_congr`).
3. `Heap.Written`: a heap in which one object was given a property, and what is found in it.
4. `Realm.lookupFrame`: the same for the calls that define properties, and for slots, which no lookup reads.
-/

namespace IterationEngine

namespace Heap

/-! ## The first owner of a key -/

/-- The prototype of an object. -/
def parent? (h : Heap) (id : ObjectId) : Handle := (h.get? id).bind Object.prototype

/-- The object `owner` owns the key, and no object does on the `n` steps up the chain that lead to it. -/
inductive OwnerAfter (h : Heap) (key : String) (owner : ObjectId) : Nat → ObjectId → Prop where
  | own (hown : (h.ownProperty? key owner).isSome = true) : OwnerAfter h key owner 0 owner
  | inherited {id parent : ObjectId} {n : Nat} (hnone : h.ownProperty? key id = none)
      (hparent : h.parent? id = some parent) (hn : OwnerAfter h key owner n parent) : OwnerAfter h key owner (n + 1) id

/-- The first object on the chain of `id`, itself included, that owns the key. -/
def FirstOwner (h : Heap) (id : ObjectId) (key : String) (owner : ObjectId) : Prop := ∃ n, h.OwnerAfter key owner n id

/-- The object `owner` is on the chain of `id`, itself included. -/
def Inherits (h : Heap) (id owner : ObjectId) : Prop := Relation.ReflTransGen (fun a b => h.parent? a = some b) id owner

variable {h h' : Heap} {id owner owner' : ObjectId} {key : String} {n n' : Nat}

/-- What is read off an identity is read off an object. -/
theorem isSome_get?_of_bind {β : Type} {read : Object → Option β} (hsome : ((h.get? id).bind read).isSome = true) :
    (h.get? id).isSome = true := by
  cases ho : h.get? id with
  | none =>
    rw [ho] at hsome
    cases hsome
  | some o => rfl

theorem ownerAfter_of_own {p : Property} (hp : h.ownProperty? key id = some p) :
    h.OwnerAfter key owner n id ↔ n = 0 ∧ owner = id := by
  constructor
  · intro hn
    cases hn with
    | own => exact ⟨rfl, rfl⟩
    | inherited hnone => cases hp.symm.trans hnone
  · rintro ⟨rfl, rfl⟩
    exact .own (hp ▸ rfl)

theorem ownerAfter_of_none (hnone : h.ownProperty? key id = none) :
    h.OwnerAfter key owner n id ↔
      ∃ parent k, n = k + 1 ∧ h.parent? id = some parent ∧ h.OwnerAfter key owner k parent := by
  constructor
  · intro hn
    cases hn with
    | own hown =>
      rw [hnone] at hown
      cases hown
    | inherited _ hparent hn => exact ⟨_, _, rfl, hparent, hn⟩
  · rintro ⟨parent, k, rfl, hparent, hn⟩
    exact .inherited hnone hparent hn

namespace OwnerAfter

theorem own_owner (hn : h.OwnerAfter key owner n id) : (h.ownProperty? key owner).isSome = true := by
  induction hn with
  | own hown => exact hown
  | inherited _ _ _ ih => exact ih

theorem inherits (hn : h.OwnerAfter key owner n id) : h.Inherits id owner := by
  induction hn with
  | own => exact .refl
  | inherited _ hparent _ ih => exact .head hparent ih

/-- There is one way up to the first owner. -/
theorem unique (hn : h.OwnerAfter key owner n id) (hn' : h.OwnerAfter key owner' n' id) : n = n' ∧ owner = owner' := by
  induction hn generalizing n' with
  | own hown =>
    obtain ⟨p, hp⟩ := Option.isSome_iff_exists.mp hown
    obtain ⟨rfl, rfl⟩ := (ownerAfter_of_own hp).mp hn'
    exact ⟨rfl, rfl⟩
  | inherited hnone hparent _ ih =>
    obtain ⟨parent, k, rfl, hparent', hrest⟩ := (ownerAfter_of_none hnone).mp hn'
    obtain rfl := Option.some.inj (hparent.symm.trans hparent')
    obtain ⟨rfl, rfl⟩ := ih hrest
    exact ⟨rfl, rfl⟩

/-- The way to the first owner passes an object at every smaller distance. -/
theorem exists_nearer (hn : h.OwnerAfter key owner n id) (hle : n' ≤ n) :
    ∃ id', h.OwnerAfter key owner n' id' ∧ (h.get? id').isSome = true := by
  induction hn with
  | own hown =>
    obtain rfl := Nat.le_zero.mp hle
    exact ⟨owner, .own hown, isSome_get?_of_bind hown⟩
  | @inherited id parent n hnone hparent hn ih =>
    rcases Nat.le_succ_iff.mp hle with hle | rfl
    · exact ih hle
    · exact ⟨id, .inherited hnone hparent hn, isSome_get?_of_bind (Option.isSome_of_eq_some hparent)⟩

/-- The first owner is nearer than there are objects: those on the way to it stand at different distances from it. -/
theorem lt_size (hn : h.OwnerAfter key owner n id) : n < h.size := by
  have hpassed : ∀ k : Fin (n + 1), ∃ i : Fin h.size, h.OwnerAfter key owner k ⟨i⟩ := by
    intro k
    obtain ⟨id', hk, hsome⟩ := hn.exists_nearer (Nat.le_of_lt_succ k.isLt)
    obtain ⟨o, ho⟩ := Option.isSome_iff_exists.mp hsome
    exact ⟨⟨id'.index, (Array.getElem?_eq_some_iff.mp ho).1⟩, hk⟩
  choose passed hpassed using hpassed
  have hinjective : Function.Injective passed := by
    intro k k' heq
    have hk' := hpassed k'
    rw [← heq] at hk'
    exact Fin.ext ((hpassed k).unique hk').1
  have hcard := Fintype.card_le_of_injective passed hinjective
  rwa [Fintype.card_fin, Fintype.card_fin] at hcard

/-- Only the prototypes and the owners of the key matter. -/
theorem congr (hparent : ∀ id, h.parent? id = h'.parent? id)
    (hown : ∀ id, h.ownProperty? key id = h'.ownProperty? key id) (hn : h.OwnerAfter key owner n id) :
    h'.OwnerAfter key owner n id := by
  induction hn with
  | own hsome => exact .own (hown owner ▸ hsome)
  | @inherited id _ _ hnone hstep _ ih => exact .inherited (hown id ▸ hnone) (hparent id ▸ hstep) ih

end OwnerAfter

/-- A chain on which some object owns the key has a first one. -/
theorem Inherits.exists_firstOwner (hi : h.Inherits id owner) (hown : (h.ownProperty? key owner).isSome = true) :
    ∃ first, h.FirstOwner id key first := by
  induction hi using Relation.ReflTransGen.head_induction_on with
  | refl => exact ⟨owner, 0, .own hown⟩
  | @head id parent hparent _ ih =>
    cases hid : h.ownProperty? key id with
    | some p => exact ⟨id, 0, .own (hid ▸ rfl)⟩
    | none =>
      obtain ⟨first, n, hn⟩ := ih
      exact ⟨first, n + 1, .inherited hid hparent hn⟩

/-! ## Lookup -/

/-- A walk looks at the object and goes on to its prototype. -/
theorem findSome?_chainFrom_succ (h : Heap) (key : String) (bound : Nat) (id : ObjectId) :
    (h.chainFrom (bound + 1) (some id)).findSome? (h.ownProperty? key) =
      (h.ownProperty? key id).or ((h.parent? id).bind fun parent =>
        (h.chainFrom bound (some parent)).findSome? (h.ownProperty? key)) := by
  rw [chainFrom, parent?]
  cases ho : h.get? id with
  | none =>
    rw [ownProperty?, ho]
    rfl
  | some o =>
    rw [List.findSome?_cons, Option.bind_some]
    cases h.ownProperty? key id with
    | some p => rfl
    | none =>
      cases o.prototype with
      | some parent => rfl
      | none => cases bound <;> rfl

/-- A walk of bounded length finds what the first owner holds, if that is near enough. -/
theorem findSome?_chainFrom (h : Heap) (key : String) (p : Property) (bound : Nat) (id : ObjectId) :
    (h.chainFrom bound (some id)).findSome? (h.ownProperty? key) = some p ↔
      ∃ owner n, n < bound ∧ h.OwnerAfter key owner n id ∧ h.ownProperty? key owner = some p := by
  induction bound generalizing id with
  | zero =>
    constructor
    · intro hnil
      cases hnil
    · rintro ⟨_, _, hlt, _⟩
      exact absurd hlt (Nat.not_lt_zero _)
  | succ bound ih =>
    rw [findSome?_chainFrom_succ]
    cases hid : h.ownProperty? key id with
    | some q =>
      rw [Option.some_or]
      constructor
      · intro heq
        exact ⟨id, 0, Nat.succ_pos _, (ownerAfter_of_own hid).mpr ⟨rfl, rfl⟩, hid.trans heq⟩
      · rintro ⟨owner, n, -, hn, hp⟩
        obtain ⟨-, rfl⟩ := (ownerAfter_of_own hid).mp hn
        exact hid.symm.trans hp
    | none =>
      rw [Option.none_or, Option.bind_eq_some_iff]
      constructor
      · rintro ⟨parent, hparent, hfound⟩
        obtain ⟨owner, n, hlt, hn, hp⟩ := (ih parent).mp hfound
        exact ⟨owner, n + 1, Nat.succ_lt_succ hlt, .inherited hid hparent hn, hp⟩
      · rintro ⟨owner, n, hlt, hn, hp⟩
        obtain ⟨parent, k, rfl, hparent, hn⟩ := (ownerAfter_of_none hid).mp hn
        exact ⟨parent, hparent, (ih parent).mpr ⟨owner, k, Nat.lt_of_succ_lt_succ hlt, hn, hp⟩⟩

/-- Lookup finds what the first owner holds. -/
theorem lookup_eq_some_iff {p : Property} :
    h.lookup id key = some p ↔ ∃ owner, h.FirstOwner id key owner ∧ h.ownProperty? key owner = some p := by
  rw [lookup, chain, findSome?_chainFrom]
  constructor
  · rintro ⟨owner, n, -, hn, hp⟩
    exact ⟨owner, ⟨n, hn⟩, hp⟩
  · rintro ⟨owner, ⟨n, hn⟩, hp⟩
    exact ⟨owner, n, hn.lt_size, hn, hp⟩

/-- Something is found exactly when some object on the chain owns the key. -/
theorem isSome_lookup_iff :
    (h.lookup id key).isSome = true ↔ ∃ owner, h.Inherits id owner ∧ (h.ownProperty? key owner).isSome = true := by
  constructor
  · intro hsome
    obtain ⟨p, hp⟩ := Option.isSome_iff_exists.mp hsome
    obtain ⟨owner, ⟨n, hn⟩, -⟩ := lookup_eq_some_iff.mp hp
    exact ⟨owner, hn.inherits, hn.own_owner⟩
  · rintro ⟨owner, hi, hown⟩
    obtain ⟨first, n, hn⟩ := hi.exists_firstOwner hown
    obtain ⟨p, hp⟩ := Option.isSome_iff_exists.mp hn.own_owner
    rw [lookup_eq_some_iff.mpr ⟨first, ⟨n, hn⟩, hp⟩]
    rfl

/-- What an object has of its own hides whatever its prototypes have. -/
theorem lookup_of_own {p : Property} (hp : h.ownProperty? key id = some p) : h.lookup id key = some p :=
  lookup_eq_some_iff.mpr ⟨id, ⟨0, .own (hp ▸ rfl)⟩, hp⟩

/-- Heaps that agree on the prototypes and on what stands under a key agree on its lookup. -/
theorem lookup_congr (hparent : ∀ id, h.parent? id = h'.parent? id)
    (hown : ∀ id, h.ownProperty? key id = h'.ownProperty? key id) (id : ObjectId) :
    h.lookup id key = h'.lookup id key := by
  refine Option.ext fun p => ?_
  rw [lookup_eq_some_iff, lookup_eq_some_iff]
  constructor
  · rintro ⟨owner, ⟨n, hn⟩, hp⟩
    exact ⟨owner, ⟨n, hn.congr hparent hown⟩, hown owner ▸ hp⟩
  · rintro ⟨owner, ⟨n, hn⟩, hp⟩
    exact ⟨owner, ⟨n, hn.congr (fun id => (hparent id).symm) fun id => (hown id).symm⟩, (hown owner).trans hp⟩

/-! ## Writing -/

/-- `h'` is `h`, as far as lookup is concerned, after the object was given that property under the key. -/
structure Written (h h' : Heap) (id : ObjectId) (key : String) (p : Property) : Prop where
  parent : ∀ id', h'.parent? id' = h.parent? id'
  own : h'.ownProperty? key id = some p
  other : ∀ key' id', ¬(key' = key ∧ id' = id) → h'.ownProperty? key' id' = h.ownProperty? key' id'

namespace Written

variable {p : Property} {start : ObjectId}

/-- From where the written object is the first owner, the property is found that was written. -/
theorem lookup_of_firstOwner (hw : Written h h' id key p) (hfirst : h'.FirstOwner start key id) :
    h'.lookup start key = some p :=
  lookup_eq_some_iff.mpr ⟨id, hfirst, hw.own⟩

/-- On the way to another first owner the written object is not met. -/
theorem before (hw : Written h h' id key p) (hn : h'.OwnerAfter key owner n start) (hne : owner ≠ id) :
    h.OwnerAfter key owner n start := by
  induction hn with
  | own hown => exact .own (hw.other key owner (fun heq => hne heq.2) ▸ hown)
  | @inherited start _ _ hnone hparent _ ih =>
    have hstart : start ≠ id := by
      rintro rfl
      cases hw.own.symm.trans hnone
    exact .inherited (hw.other key start (fun heq => hstart heq.2) ▸ hnone) (hw.parent start ▸ hparent) ih

/-- The first owner stays the first where the written object has not become it. -/
theorem after (hw : Written h h' id key p) (hn : h.OwnerAfter key owner n start)
    (hfirst : ¬h'.FirstOwner start key id) : h'.OwnerAfter key owner n start := by
  have hstart : ∀ {start}, ¬h'.FirstOwner start key id → start ≠ id := by
    rintro start hfirst rfl
    exact hfirst ⟨0, .own (hw.own ▸ rfl)⟩
  induction hn with
  | own hown => exact .own ((hw.other key owner fun heq => hstart hfirst heq.2).symm ▸ hown)
  | @inherited start _ _ hnone hparent _ ih =>
    have hnone' := (hw.other key start fun heq => hstart hfirst heq.2).trans hnone
    have hparent' := (hw.parent start).trans hparent
    exact .inherited hnone' hparent' (ih fun ⟨n, hn⟩ => hfirst ⟨n + 1, .inherited hnone' hparent' hn⟩)

/-- From everywhere else, and under every other key, the same is found as before. -/
theorem lookup_of_not_firstOwner (hw : Written h h' id key p) {key' : String}
    (hfirst : ¬(key' = key ∧ h'.FirstOwner start key id)) : h'.lookup start key' = h.lookup start key' := by
  by_cases hkey : key' = key
  · subst hkey
    have hfirst' : ¬h'.FirstOwner start key' id := fun hf => hfirst ⟨rfl, hf⟩
    have hother : ∀ {owner n}, h'.OwnerAfter key' owner n start →
        owner ≠ id ∧ h'.ownProperty? key' owner = h.ownProperty? key' owner := by
      intro owner n hn
      have hne : owner ≠ id := fun heq => hfirst' ⟨n, heq ▸ hn⟩
      exact ⟨hne, hw.other key' owner fun heq => hne heq.2⟩
    refine Option.ext fun q => ?_
    rw [lookup_eq_some_iff, lookup_eq_some_iff]
    constructor
    · rintro ⟨owner, ⟨n, hn⟩, hq⟩
      obtain ⟨hne, hsame⟩ := hother hn
      exact ⟨owner, ⟨n, hw.before hn hne⟩, hsame ▸ hq⟩
    · rintro ⟨owner, ⟨n, hn⟩, hq⟩
      have hn' := hw.after hn hfirst'
      exact ⟨owner, ⟨n, hn'⟩, (hother hn').2.trans hq⟩
  · exact lookup_congr hw.parent (fun id' => hw.other key' id' fun heq => hkey heq.1) start

end Written

/-! ## Changes of one object -/

section Modify

variable {β : Type} {f : Object → Object}

/-- A change that keeps what is read off an object keeps what is read off every object. -/
theorem bind_get?_modify (h : Heap) (id id' : ObjectId) (read : Object → Option β) (hf : ∀ o, read (f o) = read o) :
    ((h.modify id f).get? id').bind read = (h.get? id').bind read := by
  rw [get?_modify]
  split
  · rw [Option.bind_map, show read ∘ f = read from funext hf]
  · rfl

theorem parent?_modify (h : Heap) (id id' : ObjectId) (hf : ∀ o, (f o).prototype = o.prototype) :
    (h.modify id f).parent? id' = h.parent? id' :=
  bind_get?_modify h id id' _ hf

theorem ownProperty?_modify (h : Heap) (id id' : ObjectId) (key : String)
    (hf : ∀ o, (f o).properties.find? key = o.properties.find? key) :
    (h.modify id f).ownProperty? key id' = h.ownProperty? key id' :=
  bind_get?_modify h id id' _ hf

end Modify

end Heap

/-! ## Definitions and slots -/

namespace Definition

variable {r : Realm} {id : ObjectId} {d : Definition}

/-- A permitted call writes its property. -/
theorem written_define {o : Object} (ho : r.heap.get? id = some o) (hd : d.permittedOn o.properties = true) :
    r.heap.Written (r.withProperties id (o.properties.define d)).heap id d.key d.property where
  parent id' := Heap.parent?_modify r.heap id id' fun _ => rfl
  own := by
    rw [Heap.ownProperty?, Realm.get?_withProperties ho, Option.bind_some]
    exact (PropertyTable.find?_define_of_permitted hd d.key).trans (if_pos rfl)
  other key id' hother := by
    by_cases hid : id' = id
    · subst hid
      rw [Heap.ownProperty?, Realm.get?_withProperties ho, Heap.ownProperty?, ho]
      exact PropertyTable.find?_define_of_ne fun hkey => hother ⟨hkey.symm, rfl⟩
    · exact congrArg (Option.bind · _) ((Heap.get?_modify _ _ _ _).trans (if_neg (Ne.symm hid)))

/-- A call either writes its property, and is not refused, or changes nothing at all, and is not permitted. -/
theorem perform_cases (d : Definition) (id : ObjectId) (r : Realm) :
    (d.perform id r).1 ≠ some false ∧ r.heap.Written (d.perform id r).2.heap id d.key d.property ∨
      (d.perform id r).1 ≠ some true ∧ (d.perform id r).2 = r := by
  cases ho : r.heap.get? id with
  | none => exact .inr (perform_of_missing ho d)
  | some o =>
    rw [perform_apply ho]
    cases hd : d.permittedOn o.properties with
    | true =>
      refine .inl ⟨fun hanswer => ?_, written_define ho hd⟩
      cases hd.symm.trans (permittedOn_of_answerOn hanswer)
    | false =>
      refine .inr ⟨fun hanswer => ?_, withProperties_of_refused ho hd⟩
      cases hd.symm.trans (permittedOn_of_answerOn hanswer)

/-- A call that is answered by `true` writes its property. -/
theorem written_of_permitted (h : (d.perform id r).1 = some true) :
    r.heap.Written (d.perform id r).2.heap id d.key d.property := by
  rcases d.perform_cases id r with ⟨-, hw⟩ | ⟨hne, -⟩
  · exact hw
  · exact absurd h hne

/-- A call that is answered by `false` changes nothing at all. -/
theorem perform_of_refused (h : (d.perform id r).1 = some false) : (d.perform id r).2 = r := by
  rcases d.perform_cases id r with ⟨hne, -⟩ | ⟨-, hsame⟩
  · exact absurd h hne
  · exact hsame

/-- Whatever the answer, a lookup that finds something else afterwards is one for the key of the call, from below the
object that was written. -/
theorem lookup_perform (d : Definition) (id start : ObjectId) (r : Realm) {key : String}
    (hfirst : ¬(key = d.key ∧ (d.perform id r).2.heap.FirstOwner start d.key id)) :
    (d.perform id r).2.heap.lookup start key = r.heap.lookup start key := by
  rcases d.perform_cases id r with ⟨-, hw⟩ | ⟨-, hsame⟩
  · exact hw.lookup_of_not_firstOwner hfirst
  · rw [hsame]

/-- A call changes no slot of any object. -/
theorem slots_perform (d : Definition) (id id' : ObjectId) (r : Realm) :
    ((d.perform id r).2.heap.get? id').map Object.slots = (r.heap.get? id').map Object.slots := by
  cases ho : r.heap.get? id with
  | none => rw [(perform_of_missing ho d).2]
  | some o =>
    rw [perform_apply ho, Option.map_eq_bind, Option.map_eq_bind]
    exact Heap.bind_get?_modify r.heap id id' _ fun _ => rfl

end Definition

/-- No lookup reads a slot. -/
theorem Realm.lookup_setSlot (r : Realm) (id start : ObjectId) (slot key : String) (v : Value) :
    (Realm.setSlot id slot v r).2.heap.lookup start key = r.heap.lookup start key := by
  show (r.heap.modify id fun o => { o with slots := o.slots.insert slot v }).lookup start key = _
  refine Heap.lookup_congr (fun id' => ?_) (fun id' => ?_) start
  · exact Heap.parent?_modify r.heap id id' fun _ => rfl
  · exact Heap.ownProperty?_modify r.heap id id' key fun _ => rfl

/-- Which lookups see a write, in a realm: from where the object that was written is the first owner of the key, the
property is found that was written, and from everywhere else and under every other key what was found before. Slots and
properties do not touch each other. -/
structure Realm.LookupFrame (r : Realm) : Prop where
  written : ∀ (d : Definition) (id start : ObjectId), (d.perform id r).1 = some true →
    (d.perform id r).2.heap.FirstOwner start d.key id → (d.perform id r).2.heap.lookup start d.key = some d.property
  kept : ∀ (d : Definition) (id start : ObjectId) (key : String),
    ¬(key = d.key ∧ (d.perform id r).2.heap.FirstOwner start d.key id) →
    (d.perform id r).2.heap.lookup start key = r.heap.lookup start key
  refused : ∀ (d : Definition) (id : ObjectId), (d.perform id r).1 = some false → (d.perform id r).2 = r
  found : ∀ (start : ObjectId) (key : String), (r.heap.lookup start key).isSome = true ↔
    ∃ owner, r.heap.Inherits start owner ∧ (r.heap.ownProperty? key owner).isSome = true
  slotUnseen : ∀ (id start : ObjectId) (slot key : String) (v : Value),
    (Realm.setSlot id slot v r).2.heap.lookup start key = r.heap.lookup start key
  slotsKept : ∀ (d : Definition) (id id' : ObjectId),
    ((d.perform id r).2.heap.get? id').map Object.slots = (r.heap.get? id').map Object.slots

theorem Realm.lookupFrame (r : Realm) : r.LookupFrame where
  written _ _ _ h hfirst := (Definition.written_of_permitted h).lookup_of_firstOwner hfirst
  kept d id start _ hfirst := d.lookup_perform id start r hfirst
  refused _ _ h := Definition.perform_of_refused h
  found _ _ := Heap.isSome_lookup_iff
  slotUnseen id start slot key v := r.lookup_setSlot id start slot key v
  slotsKept d id id' := d.slots_perform id id' r

/-- Three objects, each the prototype of the next. The first one owns the key `k`. -/
def chainedRealm : Realm where
  heap :=
    { objects := #[{ Object.plain none with properties := PropertyTable.withValue .empty "k" .null .all },
        .plain (some ⟨0⟩), .plain (some ⟨1⟩)] }
  context := { maxDepth := 10, strict := true, symbols := ⟨⟨1, ""⟩, ⟨2, ""⟩⟩ }
  registry := {}

/-- A first definition in the middle of a chain hides what stands at its end, and is not seen from there. -/
theorem Realm.lookupFrame_chainedRealm :
    ∃ h : Heap, h = ((Definition.value "k" (.boolean true) .all).perform ⟨1⟩ chainedRealm).2.heap ∧
      chainedRealm.heap.lookup ⟨2⟩ "k" = some (.data .null .all) ∧
      h.lookup ⟨2⟩ "k" = some (.data (.boolean true) .all) ∧ h.lookup ⟨0⟩ "k" = some (.data .null .all) := by
  have hframe := chainedRealm.lookupFrame
  refine ⟨_, rfl, by decide, hframe.written (.value "k" (.boolean true) .all) ⟨1⟩ ⟨2⟩ (by decide) ?_, ?_⟩
  · exact ⟨1, .inherited (by decide) (by decide) (.own (by decide))⟩
  · have hother : ¬("k" = "k" ∧ ((Definition.value "k" (.boolean true) .all).perform ⟨1⟩ chainedRealm).2.heap.FirstOwner
        ⟨0⟩ "k" ⟨1⟩) := by
      rintro ⟨-, n, hn⟩
      cases (hn.unique (.own (by decide))).2
    exact (hframe.kept (.value "k" (.boolean true) .all) ⟨1⟩ ⟨0⟩ "k" hother).trans (by decide)

end IterationEngine
