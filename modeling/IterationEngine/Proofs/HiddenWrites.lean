import IterationEngine.Proofs.Definitions
import IterationEngine.Proofs.History
import IterationEngine.Proofs.Operations

/-!
# No hidden writes

What the engine writes to by itself.

`Command.target` says which commands are writes, and to what. All others, the operations of the protocol and everything
that makes an object among them, write to objects that they have made themselves and to no others; and a step of a list
iterator advances its cursor. So whatever else of an object that existed before is different afterwards has been written
by guest code, and a journal of the guest code shows where (`Event.Spares`).

`Run.Sparing` is the property of runs with a journal that is carried from the parts of an operation to the whole
(`Guest.Sparing.composable`), from there to programs, by induction on the tree of their commands
(`Guest.Sparing.program`), and to calls, by induction on how deeply they may be nested (`sparing_guestNoted`). The
result is `noHiddenWrites`.
-/

namespace IterationEngine

variable {H α β : Type}

/-! ## What is left alone -/

/-- A list iterator with its cursor that many places further on; any other object as it is. -/
def Object.advancedBy (steps : Nat) (o : Object) : Object :=
  match o.kind with
  | .listIterator cursor => { o with kind := .listIterator { cursor with index := cursor.index + steps } }
  | _ => o

@[simp] theorem Object.advancedBy_zero (o : Object) : o.advancedBy 0 = o := by
  obtain ⟨kind, _, _, _⟩ := o
  cases kind <;> rfl

/-- An object of `h` is in `h'` as well and is the same there, but for the cursor of a list iterator, which may have
advanced. -/
def Heap.Leaves (h h' : Heap) (id : ObjectId) : Prop :=
  ∀ o, h.get? id = some o → ∃ steps, h'.get? id = some (o.advancedBy steps)

/-- Every object of `r` is left, and the configuration of the context. -/
structure Realm.Untouched (r r' : Realm) : Prop where
  objects : ∀ id, r.heap.Leaves r'.heap id
  builtins : r'.context.builtins = r.context.builtins
  global : r'.context.global = r.context.global
  strict : r'.context.strict = r.context.strict
  maxDepth : r'.context.maxDepth = r.context.maxDepth

namespace Realm.Untouched

variable {r r' : Realm}

theorem refl (r : Realm) : r.Untouched r := ⟨fun _ o ho => ⟨0, by rwa [o.advancedBy_zero]⟩, rfl, rfl, rfl, rfl⟩

theorem absent (h : r.Untouched r') {id : ObjectId} (hid : r'.heap.get? id = none) : r.heap.get? id = none := by
  cases ho : r.heap.get? id with
  | none => rfl
  | some o =>
    obtain ⟨steps, ho'⟩ := h.objects id o ho
    cases hid.symm.trans ho'

/-- Another heap that leaves the objects. -/
theorem withHeap (h : r.Untouched r') {heap : Heap} (hobjects : ∀ id, r.heap.Leaves heap id) :
    r.Untouched { r' with heap } :=
  ⟨hobjects, h.builtins, h.global, h.strict, h.maxDepth⟩

theorem alloc (h : r.Untouched r') (o : Object) : r.Untouched { r' with heap := (r'.heap.alloc o).2 } := by
  refine h.withHeap fun id p hp => ?_
  obtain ⟨steps, hp'⟩ := h.objects id p hp
  exact ⟨steps, Heap.get?_alloc_of_some hp' o⟩

/-- One object is different, and that one is left. -/
theorem replace (h : r.Untouched r') {heap : Heap} (id : ObjectId) (hid : r.heap.Leaves heap id)
    (hother : ∀ id', id' ≠ id → heap.get? id' = r'.heap.get? id') : r.Untouched { r' with heap } := by
  refine h.withHeap fun id' => ?_
  by_cases heq : id' = id
  · exact heq ▸ hid
  · intro o ho
    rw [hother id' heq]
    exact h.objects id' o ho

end Realm.Untouched

/-! ## Writes -/

/-- What a command of guest code writes to. -/
inductive Command.Target where
  | nothing
  | object (id : ObjectId)
  /-- The registry of built-in objects, the global object, strict mode or the limit on the depth. -/
  | configuration

/-- Commands that make an object write to none that they are given. -/
def Command.target : Command → Command.Target
  | setProperty id .. | defineAccessor id .. | setMethod id .. | setPrototype id _ | setSlot id .. | bindNext id _
  | insertEntry id .. | eraseEntry id _ | insertValue id _ => .object id
  | setStrict _ | setMaxDepth _ | setGlobal _ | registerBuiltin .. | install _ => .configuration
  | _ => .nothing

/-- What is written to is nothing of what existed with `h`, or it has been left as it was, as it is when the write is
refused. -/
def Command.Target.Spares (h after : Heap) : Command.Target → Prop
  | nothing => True
  | object id => h.Leaves after id
  | configuration => False

/-- The event is no write to the configuration or to an object of `h`. -/
def Event.Spares (h : Heap) : Event → Prop
  | .performed c _ after => c.target.Spares h after
  | .called _ | .ranBody .. => True

/-- An action that changes at most the one object. -/
def Realm.WritesOnly (id : ObjectId) (x : Action α) : Prop :=
  ∀ r : Realm, ∃ heap, (x r).2 = { r with heap } ∧ ∀ id', id' ≠ id → heap.get? id' = r.heap.get? id'

namespace Realm.WritesOnly

theorem modifyObject (id : ObjectId) (f : Object → Object) : WritesOnly id (Realm.modifyObject id f) :=
  fun r => ⟨_, rfl, fun id' hne => by rw [Heap.get?_modify, if_neg (Ne.symm hne)]⟩

theorem define (id : ObjectId) (d : Definition) : WritesOnly id (d.perform id) := by
  intro r
  cases ho : r.heap.get? id with
  | some o =>
    rw [Definition.perform_apply ho]
    exact modifyObject id (fun o' => { o' with properties := o.properties.define d }) r
  | none => exact ⟨r.heap, (Definition.perform_of_missing ho d).2, fun _ _ => rfl⟩

/-- Every command that writes to an object. -/
theorem ofCommand {c : Command} {x : Action c.Reply} {id : ObjectId} (hx : c.action? = some x)
    (htarget : c.target = .object id) : WritesOnly id x := by
  cases c <;> cases htarget <;> cases hx
  case setProperty key v a => exact define id (.value key v a)
  case defineAccessor key getter setter a => exact define id (.accessor key getter setter a)
  case setMethod key v => exact define id (.method key v)
  case setPrototype | setSlot | bindNext | insertEntry | insertValue | eraseEntry => exact modifyObject id _

end Realm.WritesOnly

/-- A command that writes is one action. -/
theorem Command.exists_action_of_target {c : Command} (h : c.target ≠ .nothing) : ∃ x, c.action? = some x := by
  cases c <;> first | exact ⟨_, rfl⟩ | exact absurd rfl h

/-! ## Runs that make no hidden writes -/

/-- If none of the events so far was a write to the objects and the configuration of `r`, these are as they were. -/
def Machine.Spared (n : Machine (H × Journal)) (r : Realm) : Prop :=
  (∀ ev ∈ n.journal, ev.Spares r.heap) → r.Untouched n.realm

/-- A run that takes nothing out of its journal and spares every realm to which the objects `own` do not belong, the
writes in the journal aside. -/
def Run.Sparing (own : List ObjectId) (x : Run (H × Journal) α) : Prop :=
  ∀ n a n', x n = some (a, n') → n.journal <+: n'.journal ∧
    ∀ r : Realm, (∀ id ∈ own, r.heap.get? id = none) → n.Spared r → n'.Spared r

namespace Run.Sparing

variable {own : List ObjectId}

theorem pure (a : α) : Sparing own (Pure.pure a : Run (H × Journal) α) := by
  intro n b n' h
  obtain ⟨-, rfl⟩ := pure_eq_some h
  exact ⟨List.prefix_refl _, fun _ _ hn => hn⟩

theorem diverge : Sparing own (Run.diverge : Run (H × Journal) α) := by
  intro n a n' h
  cases h

theorem bind {x : Run (H × Journal) α} {f : α → Run (H × Journal) β} (hx : Sparing own x)
    (hf : ∀ a, Sparing own (f a)) : Sparing own (x >>= f) := by
  intro n b n'' h
  obtain ⟨a, n', hxa, hfa⟩ := bind_eq_some.mp h
  obtain ⟨hgrown, hspared⟩ := hx n a n' hxa
  obtain ⟨hgrown', hspared'⟩ := hf a n' b n'' hfa
  exact ⟨hgrown.trans hgrown', fun r hown hn => hspared' r hown (hspared r hown hn)⟩

/-- What spares every realm spares those that some objects do not belong to. -/
theorem weaken {x : Run (H × Journal) α} (hx : Sparing [] x) : Sparing own x := by
  intro n a n' h
  obtain ⟨hgrown, hspared⟩ := hx n a n' h
  exact ⟨hgrown, fun r _ => hspared r fun _ hid => absurd hid List.not_mem_nil⟩

theorem lift {x : Action α}
    (hx : ∀ r r' : Realm, (∀ id ∈ own, r.heap.get? id = none) → r.Untouched r' → r.Untouched (x r').2) :
    Sparing own (liftM x : Run (H × Journal) α) := by
  intro n a n' h
  obtain ⟨-, rfl⟩ := lift_eq_some h
  exact ⟨List.prefix_refl _, fun r hown hn hspares => hx r n.realm hown (hn hspares)⟩

theorem ask {x : Action α} (hx : ∀ r, (x r).2 = r) : Sparing own (liftM x : Run (H × Journal) α) :=
  lift fun _ r' _ hr => (hx r').symm ▸ hr

/-- The pending exception, the running call and the symbols are nothing that is spared. -/
theorem outside {x : Action α} (hx : ∀ r, ∃ frame depth cell registry, (x r).2 =
      { r with context := { r.context with frame, depth, cell }, registry }) :
    Sparing own (liftM x : Run (H × Journal) α) := by
  refine lift fun r r' _ hr => ?_
  obtain ⟨frame, depth, cell, registry, hafter⟩ := hx r'
  rw [hafter]
  exact ⟨hr.objects, hr.builtins, hr.global, hr.strict, hr.maxDepth⟩

/-- A change of an object that does not belong to the realm. -/
theorem modifyOwn {id : ObjectId} (hid : id ∈ own) (f : Object → Object) :
    Sparing own (liftM (Realm.modifyObject id f) : Run (H × Journal) Unit) := by
  refine lift fun r r' hown hr => hr.replace id ?_ fun id' hne => ?_
  · intro o ho
    cases (hown id hid).symm.trans ho
  · rw [Heap.get?_modify, if_neg (Ne.symm hne)]

/-- A fresh object belongs to no realm that has been left so far. -/
theorem alloc (o : Object) {f : ObjectId → Run (H × Journal) β} (hf : ∀ id, Sparing (id :: own) (f id)) :
    Sparing own (liftM (Realm.alloc o) >>= f) := by
  intro n b n' h
  rw [lift_bind_apply] at h
  obtain ⟨hgrown, hspared⟩ := hf _ _ b n' h
  refine ⟨hgrown, fun r hown hn hspares => ?_⟩
  have hleft : r.Untouched n.realm := hn fun ev hev => hspares ev (hgrown.subset hev)
  have hfresh : r.heap.get? (n.realm.heap.alloc o).1 = none := hleft.absent (Heap.get?_alloc_fst _ o)
  exact hspared r (List.forall_mem_cons.mpr ⟨hfresh, hown⟩) (fun _ => hleft.alloc o) hspares

theorem advance (iterator : ObjectId) :
    Sparing own (liftM (ListIterator.advance iterator) : Run (H × Journal) Unit) := by
  refine lift fun r r' _ hr => hr.replace iterator ?_ fun id' hne => ?_
  · intro o ho
    obtain ⟨steps, ho'⟩ := hr.objects iterator o ho
    refine ⟨steps + 1, ?_⟩
    show (r'.heap.modify iterator _).get? iterator = _
    rw [Heap.get?_modify, if_pos rfl, ho', Option.map_some]
    obtain ⟨kind, _, _, _⟩ := o
    cases kind <;> rfl
  · show (r'.heap.modify iterator _).get? id' = _
    rw [Heap.get?_modify, if_neg (Ne.symm hne)]

theorem requireLive (vs : List Value) : Sparing own (Run.requireLive vs : Run (H × Journal) Unit) := by
  intro n a n' h
  unfold Run.requireLive at h
  split at h
  · obtain ⟨-, rfl⟩ := Prod.mk.inj (Option.some.inj h)
    exact ⟨List.prefix_refl _, fun _ _ hn => hn⟩
  · cases h

/-- A note can only add to what is known to be written. -/
theorem noted {x : Run (H × Journal) α} (hx : Sparing own x) (event : Realm → α → Realm → Event) :
    Sparing own (x.noted event) := by
  intro n a n' h
  obtain ⟨⟨b, n₁⟩, hrun, hb⟩ := Option.map_eq_some_iff.mp h
  obtain ⟨rfl, rfl⟩ := Prod.mk.inj hb
  obtain ⟨hgrown, hspared⟩ := hx n b n₁ hrun
  refine ⟨hgrown.trans (List.prefix_append _ _), fun r hown hn hspares => ?_⟩
  exact hspared r hown hn fun ev hev => hspares ev (List.mem_append_left _ hev)

end Run.Sparing

/-- Calls of guest code make no hidden writes. -/
def Guest.Sparing (g : Guest (H × Journal)) : Prop := ∀ f v args, Run.Sparing [] (g.call f v args)

namespace Guest.Sparing

open Run.Sparing

variable {own : List ObjectId} {g : Guest (H × Journal)} (hg : g.Sparing)
include hg

/-- The parts make none of which operations are made. -/
theorem composable : Run.Composable g fun own _ x => Run.Sparing own x where
  pure := pure
  diverge := diverge
  bind := bind
  call f v args := (hg f v args).weaken
  ask := ask
  raise _ := outside fun _ => ⟨_, _, _, _, rfl⟩
  takePending := outside fun _ => ⟨_, _, _, _, rfl⟩
  alloc _ hf := alloc _ hf
  insertEntry _ _ hmap := modifyOwn hmap _
  insertValue _ hset := modifyOwn hset _

/-- The iterator that is bound to its function and given its method is a fresh one. -/
theorem createListIterator (list : List Value) :
    Run.Sparing own (liftM (ListIterator.create list) : Run (H × Journal) ObjectId) := by
  have C := hg.composable
  refine C.lift (C.intrinsic _) fun prototype => C.liftAlloc (.bare _ _ .empty) fun iterator => ?_
  refine C.liftAlloc (.ofCode _ _ _) fun next => ?_
  have hown : iterator ∈ next :: iterator :: own := List.mem_cons_of_mem _ List.mem_cons_self
  exact C.lift (modifyOwn hown _) fun _ => C.lift (modifyOwn hown _) fun _ => C.pure iterator

/-- Every action behind a command that is no write. -/
theorem ofCommand {c : Command} {x : Action c.Reply} (hx : c.action? = some x) (htarget : c.target = .nothing) :
    Run.Sparing own (liftM x : Run (H × Journal) c.Reply) := by
  have C := hg.composable
  cases c <;> cases htarget <;> cases hx
  -- questions about the state
  case getContext | getHeap | textOf | keyOf => exact C.ask fun _ => rfl
  -- the context
  case raise v => exact C.raise v
  case raiseError kind message => exact C.raiseError kind message
  case takePending => exact C.takePending
  case rethrow c => exact C.rethrow c
  case clearPending | createSymbol => exact outside fun _ => ⟨_, _, _, _, rfl⟩
  -- construction
  case createObject prototype tag slots => exact C.make (.bare _ _ _)
  case createFunction name arity builtin => exact C.make (.ofCode _ _ _)
  case createError kind message => exact C.make (.ofError _ _ _)
  case createUnbound | createMap | createSet => exact C.make (.bare _ _ .empty)
  case createResult v done => exact C.createResult v done
  case createListIterator list => exact hg.createListIterator list
  case createMapIterator source kind => exact C.ofMap source kind
  case createSetIterator source kind => exact C.ofSet source kind

/-- A command that is no write. -/
theorem run {c : Command} (htarget : c.target = .nothing) : Run.Sparing own (c.run g) :=
  (requireLive _).bind fun _ => hg.composable.perform own c fun _ hx => hg.ofCommand hx htarget

/-- A command with its note. If the command is a write, the note says what it has written to. -/
theorem command (c : Command) : Run.Sparing [] ((c.run g).noted (.ofCommand c)) := by
  by_cases htarget : c.target = .nothing
  · exact (hg.run htarget).noted _
  obtain ⟨x, hx⟩ := c.exists_action_of_target htarget
  intro n a n' h
  obtain ⟨⟨b, n₁⟩, hrun, hb⟩ := Option.map_eq_some_iff.mp h
  obtain ⟨rfl, rfl⟩ := Prod.mk.inj hb
  obtain ⟨rfl, rfl⟩ := Command.run_of_action hx hrun
  refine ⟨List.prefix_append _ _, fun r _ hn hspares => ?_⟩
  have hleft : r.Untouched n.realm := hn fun ev hev => hspares ev (List.mem_append_left _ hev)
  have hnote : c.target.Spares r.heap (x n.realm).2.heap := hspares _ (List.mem_append_right _ List.mem_cons_self)
  show r.Untouched (x n.realm).2
  cases hc : c.target with
  | nothing => exact absurd hc htarget
  | configuration =>
    rw [hc] at hnote
    exact hnote.elim
  | object id =>
    rw [hc] at hnote
    obtain ⟨heap, hafter, hother⟩ := Realm.WritesOnly.ofCommand hx hc n.realm
    rw [hafter] at hnote ⊢
    exact hleft.replace id hnote hother

end Guest.Sparing

/-! ## Programs -/

namespace Guest.Sparing

open Program Run.Sparing

variable {S : Type} {g : Guest (Embedder S × Journal)}

theorem define (name : String) (arity : UInt32) (body : List Value → Program S) :
    Run.Sparing [] (defineFunction name arity body).beside := by
  intro n f n' h
  obtain ⟨⟨b, n₁⟩, hrun, hb⟩ := Option.map_eq_some_iff.mp h
  obtain ⟨rfl, rfl⟩ := Prod.mk.inj hb
  obtain ⟨-, rfl⟩ := Prod.mk.inj (Option.some.inj hrun)
  exact ⟨List.prefix_refl _, fun r _ hn hspares => (hn hspares).alloc _⟩

theorem update (change : S → S) : Run.Sparing [] (updateState change).beside := by
  intro n state n' h
  obtain ⟨⟨b, n₁⟩, hrun, hb⟩ := Option.map_eq_some_iff.mp h
  obtain ⟨rfl, rfl⟩ := Prod.mk.inj hb
  obtain ⟨-, rfl⟩ := Prod.mk.inj (Option.some.inj hrun)
  exact ⟨List.prefix_refl _, fun r _ hn => hn⟩

/-- A program, by induction on the tree of its commands. -/
theorem program (hg : g.Sparing) (p : Program S) : Run.Sparing [] (p.runNoted g) := by
  induction p with
  | finish c => exact (requireLive _).bind fun _ => pure c
  | perform command next ih => exact (hg.command command).bind ih
  | define name arity body next _ ih => exact (define name arity body).bind ih
  | forOf iterable body next ihBody ih =>
    exact (requireLive _).bind fun _ => (hg.composable.forOf [] ihBody iterable).bind ih
  | update change next ih => exact (update change).bind ih

theorem code (hg : g.Sparing) (code : CodeId) (args : List Value) : Run.Sparing [] (runGuestNoted g code args) := by
  intro n v n' h
  unfold runGuestNoted at h
  split at h
  · next body _ => exact ((hg.program (body args)).bind fun c => pure c.value) n v n' h
  · cases h

/-- A call whose code is run one level deeper. -/
theorem callFunction (hg : g.Sparing) (f : ObjectId) (v : Value) (args : List Value) :
    Run.Sparing [] (IterationEngine.callFunction (runGuestNoted g) f v args) := by
  refine hg.composable.callFunction [] (fun frame => ⟨?_, ?_⟩) advance hg.code f v args
  · exact outside fun _ => ⟨_, _, _, _, rfl⟩
  · exact outside fun _ => ⟨_, _, _, _, rfl⟩

end Guest.Sparing

/-- Calls at every depth, by induction on how deeply they may be nested. -/
theorem sparing_guestNoted {S : Type} (rounds nesting : Nat) :
    (Program.guestNoted (S := S) rounds nesting).Sparing := by
  induction nesting with
  | zero => exact fun _ _ _ => .diverge
  | succ nesting ih => exact fun f v args => (ih.callFunction f v args).noted _

/-! ## The run that is journalled -/

section Journals

variable {S : Type}

theorem Records.sim_command {g : Guest H} {g' : Guest (H × Journal)} (M : Mirror Records g g') (c : Command) :
    Run.Sim Records (c.run g) (c.run g') :=
  (Run.Sim.requireLive M.realm _).bind fun _ => M.command (fun _ => sim_action _) c fun _ _ => sim_action _

theorem Records.sim_callFunction {guest : GuestCode H} {guest' : GuestCode (H × Journal)}
    (hguest : ∀ code args, Run.Sim Records (guest code args) (guest' code args)) (f : ObjectId) (v : Value)
    (args : List Value) : Run.Sim Records (callFunction guest f v args) (callFunction guest' f v args) := by
  have hcode : ∀ code, Run.Sim Records (runCode guest code args) (runCode guest' code args) := by
    intro code
    cases code with
    | builtin b => exact sim_action _
    | guest id => exact hguest id args
    | absent => exact .pure _
  refine (sim_action _).bind fun context => ?_
  split
  · refine (sim_action _).bind fun heap => (sim_action _).bind fun _ => ?_
    exact (hcode _).bind fun result => (sim_action _).bind fun _ => .pure result
  · exact (sim_action _).bind fun _ => .pure _

/-- A journal beside a machine survives every program. -/
theorem upheld_records : Upheld (S := S) fun (_ : Unit) => Records where
  records h := h
  quiet := by
    intro _ m n r hmn _
    obtain rfl : n.unrecorded = m := hmn
    rfl
  command M i c := (Records.sim_command (M i) c).noted fun _ _ _ h => h
  define := by
    intro _ name arity body m n hmn
    obtain ⟨j, rfl⟩ := hmn.exists_eq_recording
    exact .some ⟨rfl, rfl⟩
  update := by
    intro _ change m n hmn
    obtain ⟨j, rfl⟩ := hmn.exists_eq_recording
    exact .some ⟨rfl, rfl⟩
  call hguest i f v args := (Records.sim_callFunction (hguest i) f v args).noted fun _ _ _ h => h

/-! ## Hidden writes -/

/-- The run `x`, which is `y` without a journal, makes no writes but those in the journal: if there is none to the
configuration or to an object that existed before, everything is left that existed before. -/
def Run.OnlyNotedWrites (x : Run H α) (y : Run (H × Journal) α) : Prop :=
  ∀ m a m', x m = some (a, m') → ∃ j, y (m.recording []) = some (a, m'.recording j) ∧
    ((∀ ev ∈ j, ev.Spares m.realm.heap) → m.realm.Untouched m'.realm)

theorem Run.Sparing.onlyNotedWrites {x : Run H α} {y : Run (H × Journal) α} (hy : Sparing [] y)
    (hxy : Run.Sim Records x y) : Run.OnlyNotedWrites x y := by
  intro m a m' h
  obtain ⟨j, hj⟩ := hxy.exists_journal h []
  obtain ⟨-, hspared⟩ := hy _ _ _ hj
  exact ⟨j, hj, hspared m.realm (List.forall_mem_nil _) fun _ => .refl _⟩

/-- Operations, loops, calls and whole programs make no writes but those of the guest code and the loop bodies that are
run in them. -/
structure NoHiddenWrites (S : Type) : Prop where
  /-- Every command that is no write itself. -/
  command : ∀ (rounds nesting : Nat) (c : Command), c.target = .nothing →
    Run.OnlyNotedWrites (c.run (Program.guest (S := S) rounds nesting)) (c.run (Program.guestNoted rounds nesting))
  forOf : ∀ (rounds nesting : Nat) (iterable : Value) (body : Value → Program S),
    Run.OnlyNotedWrites
      (Iterator.forOf (Program.guest rounds nesting) iterable fun v => (body v).run (Program.guest rounds nesting))
      (Iterator.forOf (Program.guestNoted rounds nesting) iterable fun v =>
        (body v).runNoted (Program.guestNoted rounds nesting))
  call : ∀ (rounds nesting : Nat) (f : ObjectId) (v : Value) (args : List Value),
    Run.OnlyNotedWrites
      (callFunction (Program.runGuest (S := S) (Program.guest rounds nesting)) f v args)
      (callFunction (Program.runGuestNoted (Program.guestNoted rounds nesting)) f v args)
  program : ∀ (bounds : Program.Bounds) (p : Program S),
    Run.OnlyNotedWrites (p.runWithin bounds) (p.runWithinNoted bounds)

theorem noHiddenWrites (S : Type) : NoHiddenWrites S where
  command rounds nesting c htarget := by
    have hsparing : Run.Sparing [] (c.run (Program.guestNoted (S := S) rounds nesting)) :=
      (sparing_guestNoted rounds nesting).run htarget
    exact hsparing.onlyNotedWrites (Records.sim_command (upheld_records.guest rounds nesting ()) c)
  forOf rounds nesting iterable body := by
    have hg := sparing_guestNoted (S := S) rounds nesting
    have M := upheld_records.guest (S := S) rounds nesting ()
    have hsparing := hg.composable.forOf [] (fun v => hg.program (body v)) iterable
    exact hsparing.onlyNotedWrites (M.forOf (fun v => upheld_records.run (fun _ => M) () (body v)) iterable)
  call rounds nesting f v args := by
    have hsparing := (sparing_guestNoted (S := S) rounds nesting).callFunction f v args
    refine hsparing.onlyNotedWrites (Records.sim_callFunction (fun code args => ?_) f v args)
    exact upheld_records.runGuest (fun _ => upheld_records.guest rounds nesting ()) () code args
  program bounds p := by
    have hsparing := (sparing_guestNoted (S := S) bounds.rounds bounds.nesting).program p
    exact hsparing.onlyNotedWrites (upheld_records.runWithin bounds p ())

end Journals

/-! ## A step, and a write to a fresh object -/

/-- Nothing is written to but objects that are not on the heap. -/
def Event.writesElsewhere (h : Heap) : Event → Bool
  | .performed c _ _ =>
    match c.target with
    | .nothing => true
    | .object id => !h.contains id
    | .configuration => false
  | .called _ | .ranBody .. => true

theorem Event.spares_of_writesElsewhere {h : Heap} {ev : Event} (hev : ev.writesElsewhere h = true) : ev.Spares h := by
  cases ev with
  | called | ranBody => trivial
  | performed c reply after =>
    rw [writesElsewhere] at hev
    show c.target.Spares h after
    cases hc : c.target with
    | nothing => trivial
    | configuration =>
      rw [hc] at hev
      cases hev
    | object id =>
      rw [hc, Bool.not_eq_true'] at hev
      intro o ho
      exact absurd ((h.contains_iff id).mpr ⟨o, ho⟩) (Bool.eq_false_iff.mp hev)

/-- Takes a step of the list iterator 0, and gives a property to an object that it makes itself. -/
def stepAndWrite : Program Unit :=
  .perform (.step (some ⟨0⟩)) fun _ =>
    .perform (.createObject none .ordinary []) fun id =>
      .perform (.setProperty id "k" .null .all) fun _ => .finish (.normal .undefined)

/-- A machine with a list iterator. -/
def listMachine : Machine (Embedder Unit) :=
  embeddingMachine.withRealm (ListIterator.create [.boolean true] embeddingMachine.realm).2

/-- Whatever was there before is left as it was, but for the list iterator, which has advanced. -/
theorem noHiddenWrites_stepAndWrite :
    ∃ (m' : Machine (Embedder Unit)) (j : Journal),
      stepAndWrite.runWithinNoted ⟨2, 8⟩ (listMachine.recording []) = some (.normal .undefined, m'.recording j) ∧
      j.length = 4 ∧ (∀ ev ∈ j, ev.Spares listMachine.realm.heap) ∧ listMachine.realm.Untouched m'.realm ∧
      (listMachine.realm.heap.listCursor? ⟨0⟩).map ListCursor.index = some 0 ∧
      (m'.realm.heap.listCursor? ⟨0⟩).map ListCursor.index = some 1 := by
  obtain ⟨c, m', j, -, hj, hcheck, huntouched⟩ := exists_recorded (stepAndWrite.runWithin ⟨2, 8⟩ listMachine)
    (fun p => p.1 == .normal .undefined && p.2.journal.length == 4 &&
      p.2.journal.all (Event.writesElsewhere listMachine.realm.heap) &&
      (p.2.realm.heap.listCursor? ⟨0⟩).map ListCursor.index == some 1)
    ((noHiddenWrites Unit).program ⟨2, 8⟩ stepAndWrite listMachine) (by decide +kernel) (by decide +kernel)
  simp only [Bool.and_eq_true, beq_iff_eq] at hcheck
  obtain ⟨⟨⟨rfl, hlength⟩, hwrites⟩, hcursor⟩ := hcheck
  have hspares : ∀ ev ∈ j, ev.Spares listMachine.realm.heap := fun ev hev =>
    Event.spares_of_writesElsewhere (List.all_eq_true.mp hwrites ev hev)
  exact ⟨m', j, hj, hlength, hspares, huntouched hspares, by decide +kernel, hcursor⟩

end IterationEngine
