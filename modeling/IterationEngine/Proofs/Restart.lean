import IterationEngine.Proofs.Changes.Programs

/-!
# Starting again

An engine that is shut down and started again is as good as a new one.

Guest code may leave anything behind: a pending exception, intrinsic objects that are changed or replaced, another depth
limit, any number of objects. None of it survives, and even the identities of the intrinsic objects are those of a new
engine. What survives is counted and not looked at: the statistics of the heap, which go on from where they were.

1. `Realm.Installs`: an action that works alike on a heap with a past, and of the context sets the global object and the
   registry of built-in objects only. All intrinsic objects are installed by such actions (`Realm.Installs.install`).
2. `Engine.installed_eq`: so an engine without objects, started, is a new one but for the past of its heap.
3. `Engine.Reachable.named`: a live engine uses the symbols of the process, so another life uses the same ones.
4. `Engine.restarted_of_reachable`: the result.
-/

namespace IterationEngine

variable {α β : Type}

/-! ## Heaps with a past -/

/-- The heap, with the statistics of another one from before it. -/
def Heap.after (h past : Heap) : Heap :=
  { h with
    allocations := past.allocations + h.allocations
    peak := max past.peak h.peak
    stored := h.stored ++ past.stored }

theorem Heap.bytes_after (sizeOf : StorageClass → Nat) (h past : Heap) :
    (h.after past).bytes sizeOf = past.bytes sizeOf + h.bytes sizeOf := by
  rw [bytes, bytes, bytes, after, List.foldr_append]
  generalize past.stored.foldr (fun c n => sizeOf c + n) 0 = before
  induction h.stored with
  | nil => rfl
  | cons c stored ih => rw [List.foldr_cons, ih, List.foldr_cons, Nat.add_left_comm]

theorem Heap.alloc_after (h past : Heap) (o : Object) :
    (h.after past).alloc o = ((h.alloc o).1, (h.alloc o).2.after past) := by
  unfold alloc after
  rw [Nat.add_assoc, Nat.max_assoc]
  rfl

theorem Heap.release_eq (h : Heap) : h.release = Heap.empty.after h := by
  unfold release after empty
  rw [Nat.add_zero, Nat.max_zero]
  rfl

def Realm.after (r : Realm) (past : Heap) : Realm := { r with heap := r.heap.after past }

/-- An action that does to a heap with a past what it does to one without, and changes of the context the global object
and the registry of built-in objects only. -/
structure Realm.Installs (x : Action α) : Prop where
  after : ∀ r past, x (r.after past) = ((x r).1, (x r).2.after past)
  context : ∀ r, { (x r).2.context with global := r.context.global, builtins := r.context.builtins } = r.context
  registry : ∀ r, (x r).2.registry = r.registry

namespace Realm.Installs

/-- A question that does not depend on the past of the heap. -/
theorem ask {x : Action α} (hx : ∀ r, (x r).2 = r) (hafter : ∀ r past, (x (r.after past)).1 = (x r).1) :
    Installs x where
  after r past := Prod.ext (hafter r past) (by rw [hx, hx])
  context r := by rw [hx]
  registry r := by rw [hx]

theorem pure (a : α) : Installs (Pure.pure a : Action α) := ask (fun _ => rfl) fun _ _ => rfl

theorem bind {x : Action α} {f : α → Action β} (hx : Installs x) (hf : ∀ a, Installs (f a)) :
    Installs (x >>= f) where
  after r past := by
    show f (x (r.after past)).1 (x (r.after past)).2 = _
    rw [hx.after, (hf _).after]
    rfl
  context r := by
    have hsecond := (hf (x r).1).context (x r).2
    have hfirst := hx.context r
    rw [← hsecond] at hfirst
    exact hfirst
  registry r := ((hf _).registry _).trans (hx.registry r)

theorem modifyContext {f : Context → Context}
    (hf : ∀ c : Context, { f c with global := c.global, builtins := c.builtins } = c) :
    Installs (Realm.modifyContext f) where
  after _ _ := rfl
  context r := hf r.context
  registry _ := rfl

theorem alloc (o : Object) : Installs (Realm.alloc o) where
  after r past := by
    show (_, { r.after past with heap := ((r.heap.after past).alloc o).2 }) = _
    rw [Heap.alloc_after]
    rfl
  context _ := rfl
  registry _ := rfl

theorem modifyObject (id : ObjectId) (f : Object → Object) : Installs (Realm.modifyObject id f) :=
  ⟨fun _ _ => rfl, fun _ => rfl, fun _ => rfl⟩

/-- Writing a property asks for the table of the object, which has no past, and puts another one in its place. -/
theorem setProperty (id : ObjectId) (key : String) (v : Value) (a : Attributes) :
    Installs (Realm.setProperty id key v a) := by
  let table : Action (Option PropertyTable) := fun r =>
    ((r.heap.get? id).bind fun o => PropertyTable.setValue? o.properties key v a, r)
  let write (t : Option PropertyTable) : Action Bool := t.elim (Pure.pure false) fun t => do
    Realm.modifyObject id fun o => { o with properties := t }
    return true
  have hwrite : Realm.setProperty id key v a = table >>= write := by
    funext r
    unfold Realm.setProperty
    rw [getHeap_bind_apply]
    change _ = write ((r.heap.get? id).bind fun o => PropertyTable.setValue? o.properties key v a) r
    cases (r.heap.get? id).bind fun o => PropertyTable.setValue? o.properties key v a <;> rfl
  rw [hwrite]
  refine bind (ask (fun _ => rfl) fun _ _ => rfl) fun t => ?_
  cases t with
  | some t => exact (modifyObject _ _).bind fun _ => pure true
  | none => exact pure false

theorem composable : Composable Installs where
  pure := pure
  bind := bind
  getContext := ask (fun _ => rfl) fun _ _ => rfl
  intrinsic _ := ask (fun _ => rfl) fun _ _ => rfl
  alloc _ := alloc _
  registerBuiltin _ _ := modifyContext fun _ => rfl
  setProperty := setProperty
  setMethod _ _ _ := modifyObject _ _

theorem install : Installs Intrinsics.install := composable.install fun _ => modifyContext fun _ => rfl

end Realm.Installs

/-! ## Symbols -/

/-- The context has the symbols of the process, which are all there already. -/
def Realm.Named (r : Realm) : Prop := r.registry.wellKnowns = (r.context.symbols, r.registry)

namespace Symbol.Registry

/-- Asking for the symbols a second time gives the same ones and makes no more. -/
theorem wellKnowns_wellKnowns (r : Registry) : r.wellKnowns.2.wellKnowns = r.wellKnowns := by
  obtain ⟨nextId, iterator, toStringTag⟩ := r
  cases iterator <;> cases toStringTag <;> rfl

/-- Another symbol of the process makes no difference to those that are there. -/
theorem wellKnowns_create {r : Registry} {symbols : WellKnown} (h : r.wellKnowns = (symbols, r))
    (description : String) : (r.create description).2.wellKnowns = (symbols, (r.create description).2) := by
  obtain ⟨nextId, iterator, toStringTag⟩ := r
  cases iterator with
  | none => cases toStringTag <;> cases congrArg (fun p => p.2.iterator) h
  | some iterator =>
    cases toStringTag with
    | none => cases congrArg (fun p => p.2.toStringTag) h
    | some toStringTag =>
      obtain ⟨rfl, -⟩ := Prod.mk.inj h
      rfl

end Symbol.Registry

/-- The context of an engine that has just been started under that configuration, of which nobody has made use. -/
structure Context.Unused (c : Context) (config : Config) : Prop where
  pending : c.pending = none
  depth : c.depth = 0
  frame : c.frame = {}
  strict : c.strict = config.strict
  maxDepth : c.maxDepth = config.maxDepth

namespace Engine

variable {S : Type} {e : Engine S}

theorem named_freshRealm (e : Engine S) : e.freshRealm.Named := e.registry.wellKnowns_wellKnowns

/-- A live engine uses the symbols of the process. -/
theorem Reachable.named {context : Context} (he : e.Reachable) (hcontext : e.context = some context) :
    (e.machine context).realm.Named := by
  refine he.realm_induction (fun e _ => e.named_freshRealm) (fun r r' hr hchange => ?_) hcontext
  cases hchange with
  | context hsymbols => exact hr.trans (congrArg (Prod.mk · r.registry) hsymbols.symm)
  | symbol description => exact Symbol.Registry.wellKnowns_create hr description
  | alloc | modify => exact hr

/-! ## Engines without objects -/

/-- An engine without objects, started, is a new engine that has been started, but for the past of its heap. -/
theorem installed_eq (hempty : e.heap.objects = #[]) (embedder : Embedder S) :
    e.installed =
      { (fresh e.config e.registry embedder).installed with
        heap := (fresh e.config e.registry embedder).installed.heap.after e.heap
        embedder := e.embedder } := by
  have hrealm : e.freshRealm = (fresh e.config e.registry embedder).freshRealm.after e.heap := by
    have hheap : Heap.empty.after e.heap = e.heap := by rw [← Heap.release_eq, Heap.release_of_empty hempty]
    show _ = { (fresh e.config e.registry embedder).freshRealm with heap := Heap.empty.after e.heap }
    rw [hheap]
    rfl
  rw [installed, installed, hrealm, Realm.Installs.install.after]
  generalize Intrinsics.install (fresh e.config e.registry embedder).freshRealm = installed
  rfl

theorem start_of_valid (hidle : e.isInitialized = false) (hdepth : 0 < e.config.maxDepth) :
    e.start.ok = true ∧ e.start.engine = e.installed := by
  obtain ⟨hlive, -⟩ | ⟨-, hinvalid, -⟩ | ⟨-, -, hok, hstart⟩ := e.start_cases
  · exact absurd (hidle.symm.trans hlive) Bool.false_ne_true
  · exact absurd hdepth (Int.not_lt.mpr hinvalid)
  · exact ⟨hok, hstart⟩

/-- Of the context, installing sets the global object and the registry of built-in objects. -/
theorem exists_context_installed (e : Engine S) :
    ∃ context, e.installed.context = some context ∧ context.Unused e.config ∧
      context.symbols = e.registry.wellKnowns.1 := by
  have hcontext := Realm.Installs.install.context e.freshRealm
  rw [installed, context_withRealm]
  generalize (Intrinsics.install e.freshRealm).2.context = context at hcontext ⊢
  have hcell : context.cell = .empty := congrArg Context.cell hcontext
  have hpending : context.pending = none := by rw [Context.pending, hcell]; rfl
  have hunused : context.Unused e.config :=
    ⟨hpending, congrArg Context.depth hcontext, congrArg Context.frame hcontext, congrArg Context.strict hcontext,
      congrArg Context.maxDepth hcontext⟩
  exact ⟨context, rfl, hunused, congrArg Context.symbols hcontext⟩

theorem registry_installed (e : Engine S) : e.installed.registry = e.registry.wellKnowns.2 := by
  have hregistry := Realm.Installs.install.registry e.freshRealm
  rw [installed]
  generalize (Intrinsics.install e.freshRealm).2 = realm at hregistry ⊢
  exact hregistry

/-! ## Another life -/

/-- The engine shut down, and then given another configuration if there is one. -/
def idleAgain (e : Engine S) (config : Option Config) : Engine S :=
  e.handleAll (.shutdown :: config.toList.map .updateConfig)

/-- Shutting an engine down and starting it again. -/
def restart (e : Engine S) (config : Option Config) : Transition S := (e.idleAgain config).start

/-- The transition has led to a live engine, and but for the past of its heap and for its embedder that is a new engine
under the configuration, started in the same process. -/
structure Restarted (e : Engine S) (config : Config) (embedder : Embedder S) (t : Transition S) : Prop where
  ok : t.ok = true
  started : (fresh config e.registry embedder).start.ok = true
  engine : t.engine =
    { (fresh config e.registry embedder).start.engine with
      heap := (fresh config e.registry embedder).start.engine.heap.after e.heap
      embedder := e.embedder }
  objects : t.engine.heap.objects = (fresh config e.registry embedder).start.engine.heap.objects
  allocations : t.engine.heap.allocations =
    e.heap.allocations + (fresh config e.registry embedder).start.engine.heap.allocations
  peak : t.engine.heap.peak = max e.heap.peak (fresh config e.registry embedder).start.engine.heap.peak
  /-- Whatever the platform. -/
  bytes : ∀ sizeOf, t.engine.heap.bytes sizeOf =
    e.heap.bytes sizeOf + (fresh config e.registry embedder).start.engine.heap.bytes sizeOf
  context : ∃ context, t.engine.context = some context ∧ context.Unused config
  /-- The symbols of another life are the same, and no new ones have been made. -/
  symbols : ∀ previous, e.context = some previous →
    t.engine.context.map Context.symbols = some previous.symbols ∧ t.engine.registry = e.registry

theorem shutdown_engine (he : e.Reachable) :
    e.shutdown.engine = { e.emptied with isInitialized := false } := by
  cases hlive : e.isInitialized with
  | true => exact shutdown_of_live hlive
  | false => rw [shutdown_of_idle hlive, he.inStep.emptied_eq hlive, ← hlive]

theorem idleAgain_eq (he : e.Reachable) (config : Option Config) :
    e.idleAgain config =
      { e with config := config.getD e.config, heap := e.heap.release, context := none, isInitialized := false } := by
  have hshutdown := shutdown_engine he
  cases config with
  | none => exact hshutdown
  | some config =>
    show (e.shutdown.engine.handle (.updateConfig config)).2 = _
    rw [hshutdown, handle_updateConfig_of_idle rfl]
    rfl

/-- Both ways to a live engine, by starting it again and by starting a new one. -/
theorem restart_eq (he : e.Reachable) {config : Option Config} (hvalid : 0 < (config.getD e.config).maxDepth)
    (embedder : Embedder S) {new : Engine S} (hnew : new = fresh (config.getD e.config) e.registry embedder) :
    (e.restart config).ok = true ∧ new.start.ok = true ∧ new.start.engine = new.installed ∧
      (e.restart config).engine =
        { new.installed with heap := new.installed.heap.after e.heap, embedder := e.embedder } := by
  obtain ⟨hnewOk, hnewEngine⟩ := start_of_valid (e := new) (by rw [hnew]; rfl) (by rw [hnew]; exact hvalid)
  let idle : Engine S :=
    { e with config := config.getD e.config, heap := e.heap.release, context := none, isInitialized := false }
  obtain ⟨hok, hengine⟩ := start_of_valid (e := idle) rfl hvalid
  have hrestart : e.restart config = idle.start := congrArg start (idleAgain_eq he config)
  have hinstalled := installed_eq (e := idle) rfl embedder
  have hpast : ∀ h : Heap, h.after idle.heap = h.after e.heap := fun _ => rfl
  rw [hpast] at hinstalled
  refine ⟨?_, hnewOk, hnewEngine, ?_⟩
  · rw [hrestart]
    exact hok
  · rw [hrestart, hengine, hnew]
    exact hinstalled

/-- Whatever has been done to an engine, shut down and started again it is as good as new. -/
theorem restarted_of_reachable (he : e.Reachable) {config : Option Config}
    (hvalid : 0 < (config.getD e.config).maxDepth) (embedder : Embedder S) :
    Restarted e (config.getD e.config) embedder (e.restart config) := by
  obtain ⟨hok, hstarted, hnew, hengine⟩ := restart_eq he hvalid embedder rfl
  obtain ⟨context, hcontext, hunused, hsymbols⟩ :=
    (fresh (config.getD e.config) e.registry embedder).exists_context_installed
  have hregistry := (fresh (config.getD e.config) e.registry embedder).registry_installed
  rw [← hnew] at hengine hcontext hregistry
  have hrestarted : (e.restart config).engine.context = some context := by
    rw [hengine]
    exact hcontext
  refine ⟨hok, hstarted, hengine, ?_, ?_, ?_, fun sizeOf => ?_, ⟨context, hrestarted, hunused⟩, ?_⟩
  · rw [hengine]
    rfl
  · rw [hengine]
    rfl
  · rw [hengine]
    rfl
  · rw [hengine, Heap.bytes_after]
  · intro previous hprevious
    have hnamed : e.registry.wellKnowns = (previous.symbols, e.registry) := he.named hprevious
    constructor
    · rw [hrestarted, Option.map_some, hsymbols]
      exact congrArg (fun p => some p.1) hnamed
    · rw [hengine]
      exact hregistry.trans (congrArg Prod.snd hnamed)

/-- Changes what an engine was started with, and ends with an exception pending. -/
def leaveBehind : Program Unit :=
  .perform (.setStrict true) fun _ =>
    .perform (.setMaxDepth 1) fun _ =>
      .perform (.setGlobal none) fun _ =>
        .perform (.registerBuiltin "ObjectPrototype" none) fun _ =>
          .perform (.setProperty ⟨0⟩ "next" .null .all) fun _ =>
            .perform (.createSymbol "other") fun _ =>
              .perform (.createMap none) fun _ =>
                .perform (.raise (.boolean true)) fun _ => .finish (.normal .undefined)

/-- Nothing of it is left after a restart under another configuration. -/
theorem restarted_of_leaveBehind :
    ∃ (e : Engine Unit) (context : Context),
      e.Reachable ∧ e.context = some context ∧ context.pending = some (.boolean true) ∧
        context.intrinsic .objectPrototype = none ∧ e.heap.size = 18 ∧
        0 < ((some { maxDepth := 3 } : Option Config).getD e.config).maxDepth ∧
        Restarted e { maxDepth := 3 } e.embedder (e.restart (some { maxDepth := 3 })) := by
  let e₀ : Engine Unit := fresh {} {} { state := () }
  let e : Engine Unit := (e₀.start.engine.run ⟨0, 0⟩ leaveBehind).2
  have he : e.Reachable := .run _ _ (.start (.fresh {} {} { state := () }))
  have hcheck : (e.context.any fun context =>
      context.pending = some (.boolean true) ∧ context.intrinsic .objectPrototype = none) = true := by
    decide +kernel
  obtain ⟨context, hcontext, hleft⟩ := (Option.any_eq_true _ _).mp hcheck
  obtain ⟨hpending, hprototype⟩ := of_decide_eq_true hleft
  exact ⟨e, context, he, hcontext, hpending, hprototype, by decide +kernel, by decide,
    @restarted_of_reachable Unit e he (some { maxDepth := 3 }) (by decide) e.embedder⟩

end Engine

end IterationEngine
